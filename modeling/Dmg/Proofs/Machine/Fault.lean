import Dmg.Proofs.Cpu.Latches
import Dmg.Proofs.Machine.Handler
import Dmg.Proofs.Machine.Reset

/-!
# Opcodes without a meaning

A step that finds an opcode without a meaning freezes the machine and changes
nothing else.  From then on the machine gives the same answer again and again,
until somebody resumes it, turns it off and on, or puts an image in.  A machine
that is resumed goes on as if the step had not been taken.

This is so for a processor with two latches as well, although the step leaves
something behind in the second one.
-/

namespace Dmg

namespace Latched

def instruction (latched : Latched Board) : Except DecodeError Timing × Latched Board :=
  match latched.step with
  | (.error failure, stepped) => (.error failure, stepped)
  | (.ok timing, stepped) =>
      let settled := (stepped.wired.advance timing).settleInterrupts timing
      (.ok settled.1, ⟨settled.2, stepped.enableDelayed⟩)

theorem exists_instruction_eq (latched : Latched Board) :
    ∃ leftover, latched.instruction =
      (latched.wired.instruction.1, ⟨latched.wired.instruction.2, leftover⟩) := by
  rcases latched.exists_step_eq with ⟨leftover, same⟩
  refine ⟨leftover, ?_⟩
  rw [instruction, Wired.instruction, same]
  rcases latched.wired.step with ⟨answer, stepped⟩
  cases answer with
  | error failure => rfl
  | ok timing => rfl

end Latched

/-- A machine whose processor has a second latch. -/
structure LatchedMachine where
  machine : Machine
  enableDelayed : Bool

namespace LatchedMachine

def step (latched : LatchedMachine) : Except DecodeError Timing × LatchedMachine :=
  match latched.machine.fault with
  | some failure => (.error failure, latched)
  | none =>
      match Latched.instruction ⟨latched.machine.core, latched.enableDelayed⟩ with
      | (.error failure, core) =>
          (.error failure,
            ⟨{ latched.machine with core := core.wired, fault := some failure },
              core.enableDelayed⟩)
      | (.ok timing, core) =>
          (.ok timing, ⟨{ latched.machine with core := core.wired }, core.enableDelayed⟩)

def resume (latched : LatchedMachine) : LatchedMachine :=
  { latched with machine := latched.machine.resume }

/-- What a number of calls for an instruction answer, and the machine that each
of them leaves. -/
def outcomes (latched : LatchedMachine) : Nat -> List (Except DecodeError Timing × Machine)
  | 0 => []
  | count + 1 => (latched.step.1, latched.step.2.machine) :: latched.step.2.outcomes count

end LatchedMachine

namespace Machine

def outcomes (machine : Machine) : Nat -> List (Except DecodeError Timing × Machine)
  | 0 => []
  | count + 1 => machine.step :: machine.step.2.outcomes count

end Machine

namespace LatchedMachine

theorem exists_step_eq (latched : LatchedMachine) :
    ∃ leftover, latched.step = (latched.machine.step.1, ⟨latched.machine.step.2, leftover⟩) := by
  rcases latched with ⟨⟨core, config, breakpoints, pausedAt, fault⟩, enableDelayed⟩
  cases fault with
  | some failure => exact ⟨enableDelayed, rfl⟩
  | none =>
      rcases Latched.exists_instruction_eq ⟨core, enableDelayed⟩ with ⟨leftover, same⟩
      refine ⟨leftover, ?_⟩
      simp only [step, Machine.step, same]
      rcases core.instruction with ⟨answer, executed⟩
      cases answer with
      | error failure => rfl
      | ok timing => rfl

/-- What a machine answers and becomes does not depend on the second latch, neither
at once nor later. -/
theorem outcomes_eq (latched : LatchedMachine) (count : Nat) :
    latched.outcomes count = latched.machine.outcomes count := by
  induction count generalizing latched with
  | zero => rfl
  | succ count inductionHypothesis =>
      rcases latched.exists_step_eq with ⟨leftover, same⟩
      rw [outcomes, Machine.outcomes, inductionHypothesis, same]

end LatchedMachine

/-! ## The step that fails -/

namespace Wired

theorem step_of_undefined {wired : Wired Board} (fetches : wired.cpu.isIdle = false)
    (undefined : Opcode.decode (wired.memory.read wired.registers.pc) = .undefined) :
    wired.step = (.error ⟨wired.memory.read wired.registers.pc, wired.registers.pc⟩, wired) := by
  have decoded : Opcode.decode wired.fetchByte.1 = .undefined := undefined
  rw [step, fetches]
  simp only [decoded]
  rfl

end Wired

namespace Machine

def frozenBy (machine : Machine) (failure : DecodeError) : Machine :=
  { machine with fault := some failure }

theorem step_of_undefined {machine : Machine} (healthy : machine.fault = none)
    (fetches : machine.cpu.isIdle = false)
    (undefined : Opcode.decode (machine.peek machine.cpu.registers.pc) = .undefined) :
    machine.step =
      (.error ⟨machine.peek machine.cpu.registers.pc, machine.cpu.registers.pc⟩,
        machine.frozenBy ⟨machine.peek machine.cpu.registers.pc, machine.cpu.registers.pc⟩) := by
  have failed := Wired.step_of_undefined fetches undefined
  rw [step, healthy, Wired.instruction, failed]
  rfl

/-! ## While the fault lasts -/

theorem step_of_fault {machine : Machine} {failure : DecodeError}
    (frozen : machine.fault = some failure) : machine.step = (.error failure, machine) := by
  rw [step, frozen]

theorem runFrame_of_fault {machine : Machine} {failure : DecodeError}
    (frozen : machine.fault = some failure) : machine.runFrame = (.ok .frozen, machine) := by
  rw [runFrame, isFrozen, frozen]
  rfl

end Machine

theorem exists_eq_ok_of_isOk {Failure Result : Type} {outcome : Except Failure Result}
    (succeeded : outcome.isOk = true) : ∃ result, outcome = .ok result := by
  cases outcome with
  | error failure => cases succeeded
  | ok result => exact ⟨result, rfl⟩

namespace HostAction

/-- Whether an action ends a fault. -/
def thaws : HostAction -> Bool
  | .call .resume | .call .reset => true
  | .call (.load image) => (Cartridge.ofImage image).isOk
  | .call (.loadBoot image) => (BootImage.ofBytes image).isOk
  | _ => false

end HostAction

namespace Machine

theorem fault_of_reset_eq {machine : Machine} (fresh : machine.reset = machine) :
    machine.fault = none := by
  rw [← fresh]
  rfl

theorem fault_act_of_thaws (machine : Machine) {action : HostAction} (thaws : action.thaws = true) :
    (machine.act action).fault = none := by
  cases action with
  | setCpu cpu => cases thaws
  | call call =>
      rw [act]
      cases call with
      | resume => rfl
      | reset => rfl
      | load image =>
          have accepted : ∃ accepted, machine.load image = .ok accepted :=
            exists_load_eq_ok_iff.mpr (exists_eq_ok_of_isOk thaws)
          rcases accepted with ⟨⟨info, loaded⟩, accepted⟩
          rw [apply, accepted]
          exact fault_of_reset_eq (reset_loaded accepted)
      | loadBoot image =>
          have accepted : ∃ loaded, machine.loadBoot image = .ok loaded :=
            exists_loadBoot_eq_ok_iff.mpr (exists_eq_ok_of_isOk thaws)
          rcases accepted with ⟨loaded, accepted⟩
          rw [apply, accepted]
          exact fault_of_reset_eq (reset_loadedBoot accepted)
      | _ => cases thaws

theorem fault_act_of_not_thaws {machine : Machine} {failure : DecodeError}
    (frozen : machine.fault = some failure) {action : HostAction} (lasts : action.thaws = false) :
    (machine.act action).fault = some failure := by
  cases action with
  | setCpu cpu => exact frozen
  | call call =>
      rw [act]
      cases call with
      | runFrame =>
          rw [apply, runFrame_of_fault frozen]
          exact frozen
      | step =>
          rw [apply, step_of_fault frozen]
          exact frozen
      | addBreakpoint address =>
          rw [apply, addBreakpoint_eq_steered]
          exact frozen
      | removeBreakpoint address => exact frozen
      | setButton button held => exact frozen
      | load image =>
          rw [apply, load]
          change (Cartridge.ofImage image).isOk = false at lasts
          cases refused : Cartridge.ofImage image with
          | error refusal => exact frozen
          | ok cartridge =>
              rw [refused] at lasts
              cases lasts
      | loadBoot image =>
          rw [apply, loadBoot]
          change (BootImage.ofBytes image).isOk = false at lasts
          cases refused : BootImage.ofBytes image with
          | error refusal => exact frozen
          | ok boot =>
              rw [refused] at lasts
              cases lasts
      | _ => cases lasts

theorem fault_of_not_thaws {machine : Machine} {failure : DecodeError}
    (frozen : machine.fault = some failure) {actions : List HostAction}
    (lasting : ∀ action ∈ actions, action.thaws = false) :
    (actions.foldl act machine).fault = some failure := by
  induction actions generalizing machine with
  | nil => exact frozen
  | cons action actions inductionHypothesis =>
      rcases List.forall_mem_cons.mp lasting with ⟨first, others⟩
      exact inductionHypothesis (fault_act_of_not_thaws frozen first) others

/-- As long as nothing ends the fault, the machine gives it as its answer. -/
theorem answers_of_fault {machine : Machine} {failure : DecodeError}
    (frozen : machine.fault = some failure) {actions : List HostAction}
    (lasting : ∀ action ∈ actions, action.thaws = false) :
    let later := actions.foldl act machine
    later.step = (.error failure, later) ∧ later.runFrame = (.ok .frozen, later) := by
  have still := fault_of_not_thaws frozen lasting
  exact ⟨step_of_fault still, runFrame_of_fault still⟩

/-- A frozen machine that is asked for instructions and frames only does not
change. -/
theorem foldl_apply_of_fault {machine : Machine} {failure : DecodeError}
    (frozen : machine.fault = some failure) {calls : List Call}
    (running : ∀ call ∈ calls, call = .step ∨ call = .runFrame) :
    calls.foldl apply machine = machine := by
  induction calls with
  | nil => rfl
  | cons call calls inductionHypothesis =>
      rcases List.forall_mem_cons.mp running with ⟨first, others⟩
      have unchanged : machine.apply call = machine := by
        rcases first with rfl | rfl
        · rw [apply, step_of_fault frozen]
        · rw [apply, runFrame_of_fault frozen]
      rw [List.foldl_cons, unchanged]
      exact inductionHypothesis others

/-! ## Freezing and going on -/

/-- A processor that fetches does not have to be woken. -/
theorem resume_frozenBy {machine : Machine} (healthy : machine.fault = none)
    (fetches : machine.cpu.isIdle = false) (failure : DecodeError) :
    (machine.frozenBy failure).resume = machine := by
  rcases Bool.or_eq_false_iff.mp fetches with ⟨notHalted, notStopped⟩
  have awake : machine.core.cpu.wake = machine.core.cpu :=
    Cpu.ext rfl rfl notHalted.symm notStopped.symm rfl rfl
  exact Machine.ext (Wired.ext awake rfl) rfl rfl rfl healthy.symm

/-- What an opcode without a meaning does to a machine. -/
structure Fails (machine : Machine) (failure : DecodeError) : Prop where
  /-- The step reports it and leaves everything but the fault as it was. -/
  step : machine.step = (.error failure, machine.frozenBy failure)
  /-- However often the machine is asked for instructions and frames, it does not
  change. -/
  still : ∀ calls : List Call, (∀ call ∈ calls, call = .step ∨ call = .runFrame) ->
    calls.foldl apply (machine.frozenBy failure) = machine.frozenBy failure
  /-- Whatever else is done that does not end the fault, the answers stay the
  same. -/
  sticky : ∀ actions : List HostAction, (∀ action ∈ actions, action.thaws = false) ->
    let later := actions.foldl act (machine.frozenBy failure)
    later.step = (.error failure, later) ∧ later.runFrame = (.ok .frozen, later)
  /-- Any other action ends the fault. -/
  thawed : ∀ (actions : List HostAction) (action : HostAction), action.thaws = true ->
    ((actions.foldl act (machine.frozenBy failure)).act action).fault = none
  /-- A machine that is resumed is the machine before the step. -/
  resumed : (machine.frozenBy failure).resume = machine
  /-- With a second latch the step leaves something behind in it, but a machine
  that is resumed answers and becomes what it would have without the step. -/
  latched : ∀ enableDelayed, ∃ leftover,
    LatchedMachine.step ⟨machine, enableDelayed⟩ =
        (.error failure, ⟨machine.frozenBy failure, leftover⟩) ∧
      ∀ count, (LatchedMachine.resume ⟨machine.frozenBy failure, leftover⟩).outcomes count =
        LatchedMachine.outcomes ⟨machine, enableDelayed⟩ count

/-- An opcode without a meaning freezes a machine and does nothing else to it,
and a machine that is resumed goes on as if the step had not been taken. -/
theorem fails_of_undefined {machine : Machine} (healthy : machine.fault = none)
    (fetches : machine.cpu.isIdle = false)
    (undefined : Opcode.decode (machine.peek machine.cpu.registers.pc) = .undefined) :
    machine.Fails ⟨machine.peek machine.cpu.registers.pc, machine.cpu.registers.pc⟩ where
  step := step_of_undefined healthy fetches undefined
  still calls running := foldl_apply_of_fault rfl running
  sticky actions lasting := answers_of_fault rfl lasting
  thawed actions action thaws := fault_act_of_thaws _ thaws
  resumed := resume_frozenBy healthy fetches _
  latched enableDelayed := by
    rcases LatchedMachine.exists_step_eq ⟨machine, enableDelayed⟩ with ⟨leftover, same⟩
    rw [step_of_undefined healthy fetches undefined] at same
    refine ⟨leftover, same, fun count => ?_⟩
    rw [LatchedMachine.outcomes_eq, LatchedMachine.outcomes_eq, LatchedMachine.resume,
      resume_frozenBy healthy fetches]

/-- A machine that has just executed EI and finds an opcode without a meaning. -/
def doomed : Machine :=
  (startedWith [0xFB, 0xD3]).step.2

/-- The latch of EI is still set when it is resumed. -/
theorem doomed_fails :
    doomed.fault = none ∧ doomed.cpu.isIdle = false ∧
      Opcode.decode (doomed.peek doomed.cpu.registers.pc) = .undefined ∧
      doomed.cpu.enablePending = true ∧
      doomed.step = (.error ⟨0xD3, 0x0001⟩, doomed.frozenBy ⟨0xD3, 0x0001⟩) ∧
      (doomed.frozenBy ⟨0xD3, 0x0001⟩).resume = doomed := by
  have healthy : doomed.fault = none := by decide +kernel
  have fetches : doomed.cpu.isIdle = false := by decide +kernel
  have undefined : Opcode.decode (doomed.peek doomed.cpu.registers.pc) = .undefined := by
    decide +kernel
  have pending : doomed.cpu.enablePending = true := by decide +kernel
  have failure : (⟨doomed.peek doomed.cpu.registers.pc, doomed.cpu.registers.pc⟩ : DecodeError) =
      ⟨0xD3, 0x0001⟩ := by
    decide +kernel
  have fails := fails_of_undefined healthy fetches undefined
  rw [failure] at fails
  exact ⟨healthy, fetches, undefined, pending, fails.step, fails.resumed⟩

end Machine

end Dmg
