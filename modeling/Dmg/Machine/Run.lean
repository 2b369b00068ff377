import Dmg.Machine.Basic

/-!
# Running

A machine runs by instructions: the processor takes a step, the devices go on
for the time that it took, and then the processor looks for requests.  A frame
is as many of these as fit the clock cycles of a frame, the last one counted
whole.

A frame ends early at a breakpoint, before the instruction there, and when the
processor has stopped.  An opcode without a meaning freezes the machine.
-/

namespace Dmg

namespace Operation

theorem cycles_pos (operation : Operation) : 0 < operation.cycles := by
  unfold cycles operandCycles
  split <;> (try split) <;> decide

theorem cost_pos (operation : Operation) (registers : Registers) :
    0 < operation.cost registers :=
  Nat.lt_of_lt_of_le operation.cycles_pos (Nat.le_add_right _ _)

end Operation

namespace Wired

@[inline] def advance (wired : Wired Board) (timing : Timing) : Wired Board :=
  { wired with memory := wired.memory.advance timing }

/-- Look for requests after an instruction, and give the time of both. -/
def settleInterrupts (wired : Wired Board) (timing : Timing) : Timing × Wired Board :=
  match wired.serviceInterrupts with
  | (none, checked) => (timing, checked)
  | (some dispatch, checked) => (timing + dispatch, checked.advance dispatch)

/-- One instruction and what follows from it. -/
def instruction (wired : Wired Board) : Except DecodeError Timing × Wired Board :=
  match wired.step with
  | (.error failure, stepped) => (.error failure, stepped)
  | (.ok timing, stepped) =>
      let settled := (stepped.advance timing).settleInterrupts timing
      (.ok settled.1, settled.2)

theorem perform_timing {Memory : Type} [Bus Memory] (wired : Wired Memory)
    (operation : Operation) :
    (wired.perform operation).cpu.timing = ⟨operation.cost wired.registers⟩ :=
  rfl

theorem step_clocks_pos {Memory : Type} [Bus Memory] {wired next : Wired Memory}
    {timing : Timing} (stepped : wired.step = (.ok timing, next)) : 0 < timing.clocks := by
  unfold step succeed at stepped
  split at stepped
  · simp only [Prod.mk.injEq, Except.ok.injEq] at stepped
    rw [← stepped.1]
    exact (by decide : 0 < idleTiming.clocks)
  · dsimp only at stepped
    split at stepped
    · simp only [Prod.mk.injEq, Except.ok.injEq, perform_timing] at stepped
      rw [← stepped.1]
      exact Operation.cost_pos _ _
    · simp only [Prod.mk.injEq, Except.ok.injEq, perform_timing] at stepped
      rw [← stepped.1]
      exact Operation.cost_pos _ _
    · simp at stepped

theorem settleInterrupts_clocks_ge (wired : Wired Board) (timing : Timing) :
    timing.clocks <= (wired.settleInterrupts timing).1.clocks := by
  unfold settleInterrupts
  split
  · exact Nat.le_refl _
  · exact Nat.le_add_right _ _

theorem instruction_clocks_pos {wired next : Wired Board} {timing : Timing}
    (executed : wired.instruction = (.ok timing, next)) : 0 < timing.clocks := by
  unfold instruction at executed
  split at executed
  · simp at executed
  · rename_i spent stepped same
    simp only [Prod.mk.injEq, Except.ok.injEq] at executed
    rw [← executed.1]
    exact Nat.lt_of_lt_of_le (step_clocks_pos same) (settleInterrupts_clocks_ge _ _)

end Wired

/-- Why a frame came to its end. -/
inductive FrameOutcome where
  /-- Its clock cycles are spent. -/
  | completed
  /-- The next instruction is at a breakpoint. -/
  | breakpoint (address : UInt16)
  /-- The processor waits for someone outside. -/
  | stopped
  /-- An earlier fault was still there. -/
  | frozen
  deriving DecidableEq, Repr

namespace Machine

/-- Execute one instruction.  A fault is kept and given again until someone
resumes or resets the machine. -/
def step (machine : Machine) : Except DecodeError Timing × Machine :=
  match machine.fault with
  | some failure => (.error failure, machine)
  | none =>
      match machine.core.instruction with
      | (.error failure, core) =>
          (.error failure, { machine with core := core, fault := some failure })
      | (.ok timing, core) => (.ok timing, { machine with core := core })

theorem step_clocks_pos {machine next : Machine} {timing : Timing}
    (stepped : machine.step = (.ok timing, next)) : 0 < timing.clocks := by
  unfold step at stepped
  split at stepped
  · simp at stepped
  · split at stepped
    · simp at stepped
    · rename_i executed
      simp only [Prod.mk.injEq, Except.ok.injEq] at stepped
      rw [← stepped.1]
      exact Wired.instruction_clocks_pos executed

/-- Whether a frame ends before the next instruction because of a breakpoint.
The breakpoint at which the machine paused does not count, and none does while
nothing is fetched. -/
@[inline] def isAtBreakpoint (machine : Machine) : Bool :=
  machine.pausedAt != some machine.cpu.registers.pc && !machine.cpu.halted &&
    machine.breakpoints.contains machine.cpu.registers.pc

/-- Run until a number of clock cycles is spent, of which some are spent already.  The
time is compared between instructions, so the last one may take it over the number. -/
def runUntil (budget : Nat) (machine : Machine) (elapsed : Nat) :
    Except DecodeError FrameOutcome × Machine :=
  if elapsed < budget then
    if machine.cpu.stopped then (.ok .stopped, machine)
    else if machine.isAtBreakpoint then
      (.ok (.breakpoint machine.cpu.registers.pc),
        { machine with pausedAt := some machine.cpu.registers.pc })
    else
      match stepped : { machine with pausedAt := none }.step with
      | (.error failure, machine) => (.error failure, machine)
      | (.ok timing, machine) =>
          have := step_clocks_pos stepped
          runUntil budget machine (elapsed + timing.clocks)
  else (.ok .completed, machine)
termination_by budget - elapsed
decreasing_by omega

def runFrame (machine : Machine) : Except DecodeError FrameOutcome × Machine :=
  if machine.isFrozen then (.ok .frozen, machine)
  else runUntil machine.config.cyclesPerFrame machine 0

end Machine

end Dmg
