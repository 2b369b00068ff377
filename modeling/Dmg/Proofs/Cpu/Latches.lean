import Dmg.Proofs.Cpu.Control

/-!
# The second latch of EI

EI takes effect one instruction later.  A processor that works with two latches for
this moves the first one into the second behind the fetch of an opcode, and turns
interrupts on from the second one behind the operation.  DI clears both.  An opcode
without a meaning moves the second latch back, and does not clear it.

Nobody ever sees what is left there, because the next fetch overwrites it.  So the
processor with two latches does what the processor with one does, whatever its
second latch holds.
-/

namespace Dmg

/-- A processor on its bus with the second latch of EI. -/
@[ext] structure Latched (Memory : Type) where
  wired : Wired Memory
  /-- Interrupts are on behind this instruction. -/
  enableDelayed : Bool

namespace Latched

variable {Memory : Type}

/-- Move the first latch into the second one. -/
def shift (latched : Latched Memory) : Latched Memory where
  wired := { latched.wired with cpu := { latched.wired.cpu with enablePending := false } }
  enableDelayed := latched.wired.cpu.enablePending

/-- Move the second latch back into the first one.  The second one is not cleared. -/
def unshift (latched : Latched Memory) : Latched Memory where
  wired :=
    { latched.wired with cpu := { latched.wired.cpu with enablePending := latched.enableDelayed } }
  enableDelayed := latched.enableDelayed

/-- Turn interrupts on if the second latch is set, and clear it. -/
def enableLatched (latched : Latched Memory) : Latched Memory where
  wired :=
    { latched.wired with
      cpu := { latched.wired.cpu with ime := latched.wired.cpu.ime || latched.enableDelayed } }
  enableDelayed := false

/-- Reset the processor.  Both latches are cleared. -/
def reset (latched : Latched Memory) : Latched Memory where
  wired := { latched.wired with cpu := latched.wired.cpu.reset }
  enableDelayed := false

/-- Reset the processor, and clear its registers. -/
def powerOn (latched : Latched Memory) : Latched Memory :=
  { latched.reset with wired := latched.reset.wired.mapRegisters fun _ => .cleared }

variable [Bus Memory]

/-- Execute an operation.  DI clears both latches. -/
def execute (latched : Latched Memory) (operation : Operation) : Latched Memory :=
  let executed := latched.wired.execute operation
  if operation = .disableInterrupts then
    ⟨{ executed with cpu := { executed.cpu with enablePending := false } }, false⟩
  else ⟨executed, latched.enableDelayed⟩

/-- Execute an operation as a whole instruction. -/
def perform (latched : Latched Memory) (operation : Operation) : Latched Memory :=
  let timing : Timing := ⟨operation.cost latched.wired.registers⟩
  let enabled := (latched.execute operation).enableLatched
  { enabled with
    wired := { enabled.wired with cpu := { enabled.wired.cpu with timing := timing } } }

def succeed (latched : Latched Memory) : Except DecodeError Timing × Latched Memory :=
  (.ok latched.wired.cpu.timing, latched)

def step (latched : Latched Memory) : Except DecodeError Timing × Latched Memory :=
  if latched.wired.cpu.isIdle then succeed ⟨latched.wired.idle, latched.enableDelayed⟩
  else
    let address := latched.wired.registers.pc
    let fetched := latched.wired.fetchByte
    let shifted := shift ⟨fetched.2, latched.enableDelayed⟩
    match Opcode.decode fetched.1 with
    | .operation operation => (shifted.perform operation).succeed
    | .extended =>
        let selector := shifted.wired.fetchByte
        (perform ⟨selector.2, shifted.enableDelayed⟩ (.decodeExtended selector.1)).succeed
    | .undefined =>
        (.error ⟨fetched.1, address⟩, unshift ⟨shifted.wired.jump address, shifted.enableDelayed⟩)

/-- Behind a fetch the second latch turns interrupts on as the only latch of a processor
with one does.  Of the operations only DI reaches it before. -/
theorem perform_shift (latched : Latched Memory) (operation : Operation) :
    latched.shift.perform operation = ⟨latched.wired.perform operation, false⟩ := by
  by_cases refusal : operation = .disableInterrupts
  · subst refusal
    rw [Wired.perform, Cpu.settle, bne_self_eq_false, Bool.and_false, perform, execute, if_pos rfl]
    rfl
  · have other : (operation != .disableInterrupts) = true := bne_iff_ne.mpr refusal
    rw [Wired.perform, Cpu.settle, other, Bool.and_true, perform, execute, if_neg refusal]
    rfl

/-- The answer of a step and what it does to the rest of the processor do not
depend on the second latch. -/
theorem exists_step_eq (latched : Latched Memory) :
    ∃ leftover, latched.step = (latched.wired.step.1, ⟨latched.wired.step.2, leftover⟩) := by
  by_cases idle : latched.wired.cpu.isIdle = true
  · rw [step, Wired.step, if_pos idle, if_pos idle]
    exact ⟨latched.enableDelayed, rfl⟩
  · rw [step, Wired.step, if_neg idle, if_neg idle]
    cases decoded : Opcode.decode latched.wired.fetchByte.1 with
    | operation operation =>
        refine ⟨false, ?_⟩
        simp only [decoded, perform_shift]
        rfl
    | extended =>
        let selected : Latched Memory :=
          ⟨latched.wired.fetchByte.2.fetchByte.2, latched.enableDelayed⟩
        refine ⟨false, ?_⟩
        simp only [decoded]
        exact congrArg succeed
          (selected.perform_shift (.decodeExtended latched.wired.fetchByte.2.fetchByte.1))
    | undefined =>
        refine ⟨latched.wired.cpu.enablePending, ?_⟩
        simp only [decoded]
        rfl

end Latched

end Dmg
