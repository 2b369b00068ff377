import Dmg.Proofs.Machine.Turn

/-!
# One instruction after the other

A machine that is called for one instruction after the other goes through a
sequence of states.  A call that fails leaves the state as it is, so the
sequence goes on for ever.

Breakpoints have no part in it.  They belong to frames, and an instruction
neither reads nor changes them.
-/

namespace Dmg

/-! ## What an instruction takes -/

namespace Operation

theorem takenCycles_le (condition : Condition) (registers : Registers) (extra : Nat) :
    takenCycles condition registers extra <= extra := by
  rw [takenCycles]
  split
  · exact Nat.le_refl extra
  · exact Nat.zero_le extra

theorem cycles_le (operation : Operation) : operation.cycles <= 24 := by
  unfold cycles operandCycles
  split <;> (try split) <;> decide

/-- No operation takes longer than a call that is made. -/
theorem cost_le (operation : Operation) (registers : Registers) :
    operation.cost registers <= 24 := by
  have plain := operation.cycles_le
  cases operation with
  | jumpRelative condition
  | jump condition =>
      have bound := takenCycles_le condition registers 4
      cases condition <;> simp only [cost, cycles] <;> omega
  | call condition
  | ret condition =>
      have always : takenCycles .always registers 12 = 0 := rfl
      have bound := takenCycles_le condition registers 12
      cases condition <;> simp only [cost, cycles] <;> omega
  | _ => exact plain

end Operation

namespace Wired

theorem step_clocks_le {Memory : Type} [Bus Memory] {wired next : Wired Memory}
    {timing : Timing} (stepped : wired.step = (.ok timing, next)) : timing.clocks <= 24 := by
  rcases step_cases stepped with ⟨-, rfl, -⟩ | ⟨operation, fetched, -, rfl, -⟩
  · decide
  · exact operation.cost_le fetched.registers

theorem instruction_clocks_le {wired next : Wired Board} {timing : Timing}
    (executed : wired.instruction = (.ok timing, next)) : timing.clocks <= 40 := by
  rcases instruction_cases executed with ⟨spent, stepped, succeeded, -, outcome⟩
  have step := step_clocks_le succeeded
  rcases outcome with ⟨-, rfl, -⟩ | ⟨source, vector, -, rfl, -⟩
  · exact Nat.le_trans step (by decide)
  · exact Nat.add_le_add_right step 16

/-- An opcode without a meaning is reported at the address it was fetched from. -/
theorem address_of_step_eq_error {Memory : Type} [Bus Memory] {wired next : Wired Memory}
    {failure : DecodeError} (failed : wired.step = (.error failure, next)) :
    failure.address = wired.registers.pc := by
  by_cases idle : wired.cpu.isIdle = true
  · rw [step, if_pos idle] at failed
    cases failed
  · rw [step, if_neg idle] at failed
    cases same : Opcode.decode wired.fetchByte.1 with
    | operation operation =>
        simp only [same] at failed
        cases failed
    | extended =>
        simp only [same] at failed
        cases failed
    | undefined =>
        simp only [same] at failed
        cases failed
        rfl

end Wired

namespace Machine

theorem address_of_step_eq_error {machine next : Machine} {failure : DecodeError}
    (healthy : machine.fault = none) (failed : machine.step = (.error failure, next)) :
    failure.address = machine.cpu.registers.pc := by
  rw [step, healthy, Wired.instruction] at failed
  rcases taken : machine.core.step with ⟨answer, stepped⟩
  rw [taken] at failed
  cases answer with
  | ok timing => cases failed
  | error cause =>
      cases failed
      exact Wired.address_of_step_eq_error taken

/-- The machine after a number of calls for an instruction, whatever they
answer. -/
def afterSteps (machine : Machine) : Nat -> Machine
  | 0 => machine
  | count + 1 => machine.step.2.afterSteps count

/-- The clock cycles that a call for an instruction takes, none if it fails. -/
def stepClocks (machine : Machine) : Nat :=
  match machine.step.1 with
  | .ok timing => timing.clocks
  | .error _ => 0

/-- The clock cycles that a number of calls take together. -/
def spent (machine : Machine) : Nat -> Nat
  | 0 => 0
  | count + 1 => machine.stepClocks + machine.step.2.spent count

theorem afterSteps_succ (machine : Machine) (count : Nat) :
    machine.afterSteps (count + 1) = (machine.afterSteps count).step.2 := by
  induction count generalizing machine with
  | zero => rfl
  | succ count inductionHypothesis => exact inductionHypothesis machine.step.2

theorem afterSteps_add (machine : Machine) (early late : Nat) :
    machine.afterSteps (early + late) = (machine.afterSteps early).afterSteps late := by
  induction early generalizing machine with
  | zero =>
      rw [Nat.zero_add]
      rfl
  | succ early inductionHypothesis =>
      rw [Nat.succ_add]
      exact inductionHypothesis machine.step.2

/-! ## Calls one by one -/

theorem stepClocks_of_ok {machine next : Machine} {timing : Timing}
    (stepped : machine.step = (.ok timing, next)) : machine.stepClocks = timing.clocks := by
  rw [stepClocks, stepped]

theorem stepClocks_of_error {machine next : Machine} {failure : DecodeError}
    (failed : machine.step = (.error failure, next)) : machine.stepClocks = 0 := by
  rw [stepClocks, failed]

/-- The longest call makes a call in the program and dispatches an interrupt
behind it. -/
theorem stepClocks_le (machine : Machine) : machine.stepClocks <= 40 := by
  rw [stepClocks]
  split
  · next timing answer =>
    have stepped : machine.step = (.ok timing, machine.step.2) := Prod.ext answer rfl
    rcases step_cases stepped with ⟨-, executed, -⟩
    exact Wired.instruction_clocks_le executed
  · exact Nat.zero_le 40

theorem afterSteps_of_step {machine next : Machine} {answer : Except DecodeError Timing}
    (stepped : machine.step = (answer, next)) (count : Nat) :
    machine.afterSteps (count + 1) = next.afterSteps count := by
  rw [afterSteps, stepped]

theorem spent_of_ok {machine next : Machine} {timing : Timing}
    (stepped : machine.step = (.ok timing, next)) (count : Nat) :
    machine.spent (count + 1) = timing.clocks + next.spent count := by
  rw [spent, stepClocks_of_ok stepped, stepped]

theorem spent_succ (machine : Machine) (count : Nat) :
    machine.spent (count + 1) = machine.spent count + (machine.afterSteps count).stepClocks := by
  induction count generalizing machine with
  | zero => exact Nat.add_comm _ 0
  | succ count inductionHypothesis =>
      rw [spent, inductionHypothesis, ← Nat.add_assoc]
      rfl

/-! ## Breakpoints have no part -/

/-- The machine with other breakpoints, and paused at another one or at none. -/
def steered (machine : Machine) (breakpoints : List UInt16) (pausedAt : Option UInt16) :
    Machine :=
  { machine with breakpoints := breakpoints, pausedAt := pausedAt }

variable (machine : Machine) (breakpoints : List UInt16) (pausedAt : Option UInt16)

theorem step_steered :
    (machine.steered breakpoints pausedAt).step =
      (machine.step.1, machine.step.2.steered breakpoints pausedAt) := by
  rcases machine with ⟨core, config, own, paused, fault⟩
  cases fault with
  | some failure => rfl
  | none =>
      simp only [step, steered]
      split <;> rfl

/-- An instruction keeps the breakpoints. -/
theorem step_eq_steered :
    machine.step =
      (machine.step.1, machine.step.2.steered machine.breakpoints machine.pausedAt) :=
  machine.step_steered machine.breakpoints machine.pausedAt

theorem afterSteps_steered (count : Nat) :
    (machine.steered breakpoints pausedAt).afterSteps count =
      (machine.afterSteps count).steered breakpoints pausedAt := by
  induction count generalizing machine with
  | zero => rfl
  | succ count inductionHypothesis =>
      rw [afterSteps, step_steered, inductionHypothesis]
      rfl

theorem stepClocks_steered :
    (machine.steered breakpoints pausedAt).stepClocks = machine.stepClocks := by
  rw [stepClocks, step_steered]
  rfl

theorem spent_steered (count : Nat) :
    (machine.steered breakpoints pausedAt).spent count = machine.spent count := by
  induction count generalizing machine with
  | zero => rfl
  | succ count inductionHypothesis =>
      rw [spent, stepClocks_steered, step_steered, inductionHypothesis]
      rfl

/-- The sequence of states keeps the breakpoints that it began with. -/
theorem afterSteps_eq_steered (count : Nat) :
    machine.afterSteps count =
      (machine.afterSteps count).steered machine.breakpoints machine.pausedAt :=
  machine.afterSteps_steered machine.breakpoints machine.pausedAt count

end Machine

end Dmg
