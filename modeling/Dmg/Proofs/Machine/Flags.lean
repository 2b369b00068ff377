import Dmg.Proofs.Board.Ram
import Dmg.Proofs.Cpu.Flags
import Dmg.Proofs.Machine.Reset

/-!
# The flags of a running machine

A step of a machine is a course: a step of the processor, a look for requests, and time for
the devices.  So whatever courses keep is kept while a machine runs.  When its power is turned
on F holds flags and nothing else, and this stays so whatever its owner asks of it, as long as
the owner does not put something else there.
-/

namespace Dmg

open Registers (Flagged)

namespace Wired

/-- A look for requests and the time of the dispatch, if there is one. -/
theorem course_settleInterrupts (wired : Wired Board) (timing : Timing) :
    Course (fun _ => True) wired (wired.settleInterrupts timing).2 := by
  apply Course.look
  rw [settleInterrupts]
  split
  · next checked same =>
    rw [same]
    exact .done _
  · next dispatch checked same =>
    rw [same]
    exact .devices _ (.done _)

theorem course_instruction (wired : Wired Board) :
    Course (fun _ => True) wired wired.instruction.2 := by
  refine .step (fun _ _ => trivial) ?_
  rw [instruction]
  split
  · next failure stepped same =>
    rw [same]
    exact .done _
  · next timing stepped same =>
    rw [same]
    exact .devices _ (course_settleInterrupts _ timing)

end Wired

namespace Machine

theorem course_step (machine : Machine) :
    Wired.Course (fun _ => True) machine.core machine.step.2.core := by
  have executed := machine.core.course_instruction
  rw [step]
  split
  · exact .done _
  · split <;> next same =>
      rw [same] at executed
      exact executed

theorem course_afterSteps (machine : Machine) (count : Nat) :
    Wired.Course (fun _ => True) machine.core (machine.afterSteps count).core := by
  induction count generalizing machine with
  | zero => exact .done _
  | succ count inductionHypothesis => exact machine.course_step.trans (inductionHypothesis _)

theorem course_runFrame (machine : Machine) :
    Wired.Course (fun _ => True) machine.core machine.runFrame.2.core := by
  change Wired.Course _ machine.unpaused.core machine.runFrame.2.unpaused.core
  rw [machine.frameCalls_eq.2]
  exact machine.unpaused.course_afterSteps _

/-- When the power has been turned on, F holds flags and nothing else. -/
theorem onlyFlags_reset (machine : Machine) : machine.reset.cpu.registers.OnlyFlags := by
  change (startingCpu _).registers.OnlyFlags
  rw [startingCpu]
  split <;> decide

theorem onlyFlags_apply {machine : Machine} (clean : machine.cpu.registers.OnlyFlags)
    (call : Call) : (machine.apply call).cpu.registers.OnlyFlags := by
  cases call with
  | runFrame => exact machine.course_runFrame.onlyFlags clean
  | step => exact machine.course_step.onlyFlags clean
  | addBreakpoint address =>
      rw [apply, addBreakpoint_eq_steered]
      exact clean
  | removeBreakpoint address | setButton button held | resume => exact clean
  | reset => exact machine.onlyFlags_reset
  | load image =>
      rw [apply, load]
      cases Cartridge.ofImage image with
      | error refusal => exact clean
      | ok cartridge => exact onlyFlags_reset _
  | loadBoot image =>
      rw [apply, loadBoot]
      cases BootImage.ofBytes image with
      | error refusal => exact clean
      | ok boot => exact onlyFlags_reset _

theorem onlyFlags_act {machine : Machine} (clean : machine.cpu.registers.OnlyFlags)
    {action : HostAction} (proper : ∀ cpu, action = .setCpu cpu -> cpu.registers.OnlyFlags) :
    (machine.act action).cpu.registers.OnlyFlags := by
  cases action with
  | call call => exact onlyFlags_apply clean call
  | setCpu cpu => exact proper cpu rfl

theorem onlyFlags_actAll {machine : Machine} (clean : machine.cpu.registers.OnlyFlags)
    {actions : List HostAction}
    (proper : ∀ cpu, HostAction.setCpu cpu ∈ actions -> cpu.registers.OnlyFlags) :
    (actions.foldl act machine).cpu.registers.OnlyFlags := by
  induction actions generalizing machine with
  | nil => exact clean
  | cons action actions inductionHypothesis =>
      apply inductionHypothesis
      · exact onlyFlags_act clean fun cpu same => proper cpu (same ▸ List.mem_cons_self)
      · exact fun cpu member => proper cpu (List.mem_cons_of_mem action member)

/-- A step succeeds where there is an operation, and does to F what belongs to it: it touches
the flags of its operation and no others, gives those that have a fixed value this value, and
keeps the lower four bits of F clear.  A dispatch does not touch F.  So the lower four bits
are clear in every course on every bus that begins with them clear, and in a machine from the
time when its power is turned on, whatever its owner asks of it, unless the owner puts
something else there. -/
theorem operations_touch_their_flags {Memory : Type} [Bus Memory] :
    (∀ (wired : Wired Memory) (operation : Operation), wired.operation? = some operation ->
      (∃ timing, wired.step.1 = .ok timing) ∧
        Flagged operation wired.registers wired.step.2.registers) ∧
    (∀ wired : Wired Memory, wired.serviceInterrupts.2.registers.f = wired.registers.f) ∧
    (∀ first last : Wired Memory, Wired.Course (fun _ => True) first last ->
      first.registers.OnlyFlags -> last.registers.OnlyFlags) ∧
    (∀ machine : Machine, machine.reset.cpu.registers.OnlyFlags) ∧
    ∀ (machine : Machine) (actions : List HostAction), machine.cpu.registers.OnlyFlags ->
      (∀ cpu, HostAction.setCpu cpu ∈ actions -> cpu.registers.OnlyFlags) ->
      ∀ count, ((actions.foldl act machine).afterSteps count).cpu.registers.OnlyFlags := by
  refine ⟨?_, ?_, ?_, ?_, ?_⟩
  · intro wired operation defined
    exact Wired.flagged_of_operation defined
  · intro wired
    exact wired.f_serviceInterrupts
  · intro first last course clean
    exact course.onlyFlags clean
  · intro machine
    exact machine.onlyFlags_reset
  · intro machine actions clean proper count
    exact (course_afterSteps _ count).onlyFlags (onlyFlags_actAll clean proper)

/-- A program that counts A up and takes F from the stack. -/
def flagProgram : Wired Board :=
  { cpu := { Cpu.afterBoot with
      registers := { Registers.afterBoot with a := 0x0F, f := 0xD0, pc := 0xC000, sp := 0xC003 } }
    memory := (Board.empty .green).setAll 0xC000 [0x3C, 0xF1, 0x00, 0xFF, 0xFF] }

/-- Counting up keeps the carry and raises the half carry.  Of the byte FF that comes from the
stack the lower four bits are lost. -/
theorem flagProgram_touches_its_flags :
    flagProgram.operation? = some (.increment .a) ∧
      flagProgram.step.2.operation? = some (.pop .af) ∧
      Flagged (.increment .a) flagProgram.registers flagProgram.step.2.registers ∧
      flagProgram.step.2.registers.f = 0x30 ∧
      flagProgram.step.2.step.2.registers.f = 0xF0 ∧
      ((new .standard).afterSteps 2).cpu.registers.OnlyFlags := by
  have counts : flagProgram.operation? = some (.increment .a) := by
    decide +kernel
  have pops : flagProgram.step.2.operation? = some (.pop .af) := by
    decide +kernel
  have flags := @operations_touch_their_flags Board _
  have clean : (new .standard).cpu.registers.OnlyFlags := by
    decide
  refine ⟨counts, pops, (flags.1 _ _ counts).2, by decide +kernel, by decide +kernel, ?_⟩
  exact flags.2.2.2.2 (new .standard) [] clean (fun cpu member => by cases member) 2

end Machine

end Dmg
