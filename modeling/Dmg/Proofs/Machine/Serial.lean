import Dmg.Proofs.Board.Serial
import Dmg.Proofs.Cpu.Traffic
import Dmg.Proofs.Machine.Counter
import Dmg.Proofs.Machine.Interruption

/-!
# What a machine has sent

A program sends a byte by two writes, and it does not matter which instruction makes them, nor
whether it is an instruction at all: a dispatch writes as well, and the stack may lie over the
registers of the link.  All that counts is the order of the writes.

So what a machine has sent since its power came on is what its writes send, from the first one
to the last.  Whatever is done with the machine, nothing that was sent is taken back until the
power goes off.
-/

namespace Dmg

open Interrupt

namespace Board

theorem sends_foldl_writing (board : Board) (writes : List (UInt16 × UInt8)) :
    board.serial.Sends ((writes.map Wired.writing).foldl act board).serial writes := by
  induction writes generalizing board with
  | nil => exact .nil board.serial
  | cons write writes inductionHypothesis =>
      exact (board.sends_write write.1 write.2).append (inductionHypothesis _)

end Board

namespace Wired

section Sends

variable (wired : Wired Board)

theorem sends_step : wired.memory.serial.Sends wired.step.2.memory.serial wired.stepWrites := by
  rw [memory_step]
  exact wired.memory.sends_foldl_writing wired.stepWrites

theorem sends_serviceInterrupts :
    wired.memory.serial.Sends wired.serviceInterrupts.2.memory.serial wired.checkWrites := by
  rw [memory_serviceInterrupts]
  exact wired.memory.sends_foldl_writing wired.checkWrites

theorem sends_settleInterrupts (timing : Timing) :
    wired.memory.serial.Sends (wired.settleInterrupts timing).2.memory.serial
      wired.checkWrites := by
  have sends := wired.sends_serviceInterrupts
  rw [settleInterrupts]
  rcases looked : wired.serviceInterrupts with ⟨answer, checked⟩
  rw [looked] at sends
  cases answer <;> exact sends

theorem sends_instruction :
    wired.memory.serial.Sends wired.instruction.2.memory.serial wired.instructionWrites := by
  have sends := wired.sends_step
  rw [instruction, instructionWrites, atCheck]
  rcases stepped : wired.step with ⟨answer, after⟩
  rw [stepped] at sends
  cases answer with
  | error failure => exact sends
  | ok timing => exact sends.append ((after.advance timing).sends_settleInterrupts timing)

end Sends

/-! ## Where the writes come from -/

/-- A step that carries out no operation writes nothing. -/
theorem stepWrites_of_operation?_eq_none {wired : Wired Board}
    (none : wired.operation? = none) : wired.stepWrites = [] := by
  have same : wired.decoded? = _ := Recorded.view.decoded?_wired wired.recorded
  rw [operation?, Option.map_eq_none_iff, same, Option.map_eq_none_iff] at none
  rw [stepWrites, step]
  rw [decoded?] at none
  split at none
  · next idle =>
    rw [if_pos idle]
    rfl
  · next awake =>
    rw [if_neg awake]
    cases decoded : Opcode.decode wired.recorded.fetchByte.1 with
    | undefined =>
        simp only [decoded]
        rfl
    | operation | extended => simp only [decoded, reduceCtorEq] at none

/-- The look for requests writes only if it dispatches: it takes the request back, and then it
saves the program counter, its high byte first. -/
theorem checkWrites_eq (wired : Wired Board) :
    wired.checkWrites =
      match wired.dispatched? with
      | none => []
      | some (source, _) =>
          (requestAddress, wired.memory.read requestAddress &&& ~~~source.mask) ::
            wired.registers.pushes wired.registers.pc := by
  rw [checkWrites]
  by_cases quiet : wired.pending = 0
  · have nothing : wired.dispatched? = none := by
      rw [dispatched?, quiet]
      cases wired.cpu.ime <;> rfl
    have looked : wired.recorded.serviceInterrupts = (none, _) := if_pos quiet
    rw [nothing, looked]
    rfl
  · have looked : wired.recorded.serviceInterrupts = _ := if_neg quiet
    rw [looked]
    split
    · next source vector permitted found =>
      have handled : wired.dispatched? = some (source, vector) := by
        rw [dispatched?]
        exact (if_pos permitted).trans found
      rw [handled]
      rfl
    · next other =>
      have none : wired.dispatched? = none := by
        rw [Option.eq_none_iff_forall_ne_some]
        rintro ⟨source, vector⟩ handled
        rw [dispatched?] at handled
        split at handled
        · next permitted => exact other source vector permitted handled
        · cases handled
      rw [none]
      rfl

/-- What an instruction writes is what the table has for its operation, and what is written
behind it is what a dispatch saves. -/
structure WritesByTable (wired : Wired Board) : Prop where
  unwritten : wired.operation? = none -> wired.stepWrites = []
  operation : ∀ operation, wired.operation? = some operation ->
    ∃ opcode operand found, Performs wired operation opcode operand found ∧
      wired.stepWrites = operation.writes wired.registers
        (wired.registers.pc + UInt16.ofNat operation.length) operand found
  quiet : wired.atCheck.dispatched? = none -> wired.atCheck.checkWrites = []
  dispatch : ∀ source vector, wired.atCheck.dispatched? = some (source, vector) ->
    wired.atCheck.checkWrites =
      [(requestAddress, wired.atCheck.memory.read requestAddress &&& ~~~source.mask),
        (wired.atCheck.registers.sp - 1, Word.high wired.atCheck.registers.pc),
        (wired.atCheck.registers.sp - 2, Word.low wired.atCheck.registers.pc)]

theorem writesByTable (wired : Wired Board) : wired.WritesByTable where
  unwritten := stepWrites_of_operation?_eq_none
  operation := by
    intro operation defined
    rcases exists_performs defined with ⟨opcode, operand, found, performs⟩
    exact ⟨opcode, operand, found, performs, performs.stepWrites⟩
  quiet := by
    intro quiet
    rw [checkWrites_eq, quiet]
  dispatch := by
    intro source vector dispatched
    rw [checkWrites_eq, dispatched]
    rfl

end Wired

namespace Call

/-- Whether a call turns the power off and on.  An image that is refused does not. -/
def restarts : Call -> Bool
  | .reset => true
  | .load image => (Cartridge.ofImage image).isOk
  | .loadBoot image => (BootImage.ofBytes image).isOk
  | _ => false

end Call

namespace HostAction

/-- Whether an action turns the power off and on. -/
def restarts : HostAction -> Bool
  | .call asked => asked.restarts
  | .setCpu _ => false

end HostAction

namespace Machine

/-! ## Calls and frames -/

theorem sends_step (machine : Machine) :
    machine.board.serial.Sends machine.step.2.board.serial machine.writes := by
  rw [writes, step]
  cases machine.fault with
  | some failure => exact .nil _
  | none =>
      have sends := machine.core.sends_instruction
      rcases executed : machine.core.instruction with ⟨answer, core⟩
      rw [executed] at sends
      cases answer <;> exact sends

/-- What a number of calls for an instruction write, one after the other. -/
def writesOver (machine : Machine) (count : Nat) : List (UInt16 × UInt8) :=
  (List.range count).flatMap fun earlier => (machine.afterSteps earlier).writes

theorem writesOver_succ (machine : Machine) (count : Nat) :
    machine.writesOver (count + 1) =
      machine.writesOver count ++ (machine.afterSteps count).writes := by
  rw [writesOver, List.range_succ, List.flatMap_append, List.flatMap_singleton]
  rfl

theorem sends_afterSteps (machine : Machine) (count : Nat) :
    machine.board.serial.Sends (machine.afterSteps count).board.serial
      (machine.writesOver count) := by
  induction count with
  | zero => exact .nil _
  | succ count inductionHypothesis =>
      rw [writesOver_succ, afterSteps_succ]
      exact inductionHypothesis.append (machine.afterSteps count).sends_step

theorem flatMap_frameCalls (machine : Machine) :
    machine.frameCalls.flatMap writes = machine.writesOver machine.frameCalls.length := by
  have same (earlier : Nat) :
      (machine.unpaused.afterSteps earlier).writes = (machine.afterSteps earlier).writes := by
    rw [afterSteps_unpaused]
    rfl
  rw [machine.frameCalls_eq.1, List.flatMap_map, List.length_map, List.length_range]
  exact List.flatMap_congr fun earlier _ => same earlier

theorem sends_runFrame (machine : Machine) :
    machine.board.serial.Sends machine.runFrame.2.board.serial
      (machine.frameCalls.flatMap writes) := by
  have last := machine.frameCalls_eq.2
  rw [afterSteps_unpaused] at last
  have board : machine.runFrame.2.board = (machine.afterSteps machine.frameCalls.length).board :=
    (congrArg Machine.board last :)
  rw [flatMap_frameCalls, board]
  exact machine.sends_afterSteps _

theorem FrameCounts.sends {machine last : Machine} {count : Nat}
    {outcome : Except DecodeError FrameOutcome} (counts : machine.FrameCounts count outcome last) :
    machine.board.serial.Sends last.board.serial (machine.writesOver count) := by
  have board : last.board = (machine.afterSteps count).board :=
    (congrArg Machine.board counts.reached :)
  rw [board]
  exact machine.sends_afterSteps count

/-! ## Host actions -/

/-- What is written in the course of an action. -/
def actionWrites (machine : Machine) : HostAction -> List (UInt16 × UInt8)
  | .call call => (machine.called call).flatMap writes
  | .setCpu _ => []

theorem sends_apply (machine : Machine) {call : Call} (on : call.restarts = false) :
    machine.board.serial.Sends (machine.apply call).board.serial
      ((machine.called call).flatMap writes) := by
  cases call with
  | runFrame => exact machine.sends_runFrame
  | step =>
      rw [called, List.flatMap_singleton]
      exact machine.sends_step
  | addBreakpoint address =>
      rw [apply, addBreakpoint_eq_steered]
      exact .nil _
  | removeBreakpoint | setButton | resume => exact .nil _
  | reset => cases on
  | load image =>
      rw [Call.restarts] at on
      rw [apply, load]
      cases refused : Cartridge.ofImage image with
      | ok cartridge =>
          rw [refused] at on
          cases on
      | error refusal => exact .nil _
  | loadBoot image =>
      rw [Call.restarts] at on
      rw [apply, loadBoot]
      cases refused : BootImage.ofBytes image with
      | ok boot =>
          rw [refused] at on
          cases on
      | error refusal => exact .nil _

theorem sends_act (machine : Machine) {action : HostAction} (on : action.restarts = false) :
    machine.board.serial.Sends (machine.act action).board.serial (machine.actionWrites action) := by
  cases action with
  | call call => exact machine.sends_apply on
  | setCpu cpu => exact .nil _

/-- When the power comes on nothing has been sent. -/
theorem serial_act_of_restarts (machine : Machine) {action : HostAction}
    (restarts : action.restarts = true) : (machine.act action).board.serial = .initial := by
  cases action with
  | setCpu cpu => cases restarts
  | call call =>
      cases call with
      | reset => rfl
      | load image =>
          rw [HostAction.restarts, Call.restarts] at restarts
          rw [act, apply, load]
          cases accepted : Cartridge.ofImage image with
          | ok cartridge => rfl
          | error refusal =>
              rw [accepted] at restarts
              cases restarts
      | loadBoot image =>
          rw [HostAction.restarts, Call.restarts] at restarts
          rw [act, apply, loadBoot]
          cases accepted : BootImage.ofBytes image with
          | ok boot => rfl
          | error refusal =>
              rw [accepted] at restarts
              cases restarts
      | _ => cases restarts

/-- What a machine has written since its power came on. -/
inductive HasWritten : Machine -> List (UInt16 × UInt8) -> Prop where
  | new (config : Config) : HasWritten (new config) []
  | restarted {machine : Machine} {writes : List (UInt16 × UInt8)} {action : HostAction}
      (before : machine.HasWritten writes) (restarts : action.restarts = true) :
      HasWritten (machine.act action) []
  | acted {machine : Machine} {writes : List (UInt16 × UInt8)} {action : HostAction}
      (before : machine.HasWritten writes) (on : action.restarts = false) :
      HasWritten (machine.act action) (writes ++ machine.actionWrites action)
  /-- Its clock cycles are counted in a word for a frame. -/
  | counted {machine last : Machine} {writes : List (UInt16 × UInt8)} {count : Nat}
      {outcome : Except DecodeError FrameOutcome} (before : machine.HasWritten writes)
      (counts : machine.FrameCounts count outcome last) :
      HasWritten last (writes ++ machine.writesOver count)

theorem HasWritten.sends {machine : Machine} {writes : List (UInt16 × UInt8)}
    (written : machine.HasWritten writes) :
    Serial.initial.Sends machine.board.serial writes := by
  induction written with
  | new config => exact .nil _
  | @restarted machine _ action _ restarts =>
      rw [machine.serial_act_of_restarts restarts]
      exact .nil _
  | @acted machine _ action _ on inductionHypothesis =>
      exact inductionHypothesis.append (machine.sends_act on)
  | counted _ counts inductionHypothesis => exact inductionHypothesis.append counts.sends

/-- Every history leaves behind something that was written. -/
theorem exists_hasWritten (config : Config) (actions : List HostAction) :
    ∃ writes, (actions.foldl act (new config)).HasWritten writes := by
  have kept (machine : Machine) (before : ∃ writes, machine.HasWritten writes) :
      ∃ writes, (actions.foldl act machine).HasWritten writes := by
    induction actions generalizing machine with
    | nil => exact before
    | cons action actions inductionHypothesis =>
        rcases before with ⟨writes, written⟩
        apply inductionHypothesis
        cases restarts : action.restarts with
        | true => exact ⟨_, written.restarted restarts⟩
        | false => exact ⟨_, written.acted restarts⟩
  exact kept (new config) ⟨[], .new config⟩

theorem HasWritten.afterSteps {machine : Machine} {writes : List (UInt16 × UInt8)}
    (written : machine.HasWritten writes) (count : Nat) :
    (machine.afterSteps count).HasWritten (writes ++ machine.writesOver count) := by
  induction count with
  | zero =>
      rw [show machine.writesOver 0 = [] from rfl, List.append_nil]
      exact written
  | succ count inductionHypothesis =>
      let step : HostAction := .call .step
      have single : (machine.afterSteps count).actionWrites step =
          (machine.afterSteps count).writes := List.append_nil _
      have later := inductionHypothesis.acted (show step.restarts = false from rfl)
      rw [single, List.append_assoc, ← writesOver_succ] at later
      rw [afterSteps_succ]
      exact later

theorem prefix_of_sends {first last : Machine} {writes : List (UInt16 × UInt8)}
    (sends : first.board.serial.Sends last.board.serial writes) :
    first.serialOutput.toList <+: last.serialOutput.toList := by
  rw [serialOutput, serialOutput, sends.sent]
  exact List.prefix_append _ _

/-- The link loses nothing and invents nothing.  Whatever was done with a machine, it has sent
what its writes since its power came on send, and it goes on from there until its power goes
off.  The writes are those of the instructions, as the table has them, and of the dispatches. -/
theorem serialOutput_eq_sentBy :
    (∀ (config : Config) (actions : List HostAction),
      ∃ writes, (actions.foldl act (new config)).HasWritten writes) ∧
    (∀ (machine : Machine) (writes : List (UInt16 × UInt8)), machine.HasWritten writes ->
      machine.serialOutput.toList = Serial.sentBy 0 writes ∧
      (∀ action : HostAction, action.restarts = false ->
        machine.serialOutput.toList <+: (machine.act action).serialOutput.toList) ∧
      (∀ rounds outcome last, machine.countFrame rounds = some (outcome, last) ->
        machine.serialOutput.toList <+: last.serialOutput.toList) ∧
      ∀ action : HostAction, action.restarts = true -> (machine.act action).serialOutput = #[]) ∧
    ∀ wired : Wired Board, wired.WritesByTable := by
  refine ⟨exists_hasWritten, ?_, Wired.writesByTable⟩
  intro machine writes written
  refine ⟨written.sends.sent, ?_, ?_, ?_⟩
  · intro action on
    exact prefix_of_sends (machine.sends_act on)
  · intro rounds outcome last counted
    rcases exists_frameCounts counted with ⟨count, counts⟩
    exact prefix_of_sends counts.sends
  · intro action restarts
    exact congrArg Serial.sent (machine.serial_act_of_restarts restarts)

/-- Send a byte, and then save a word where the stack lies over the registers of the link. -/
def sendTwice : List UInt8 :=
  [0x3E, 0x4F, 0xE0, 0x01, 0x3E, 0x81, 0xE0, 0x02, 0x31, 0x03, 0xFF, 0x01, 0x55, 0x81, 0xC5]

/-- The high byte of the word goes first and starts a transfer, so the byte is sent again. -/
theorem sendTwice_sends_twice :
    let writes : List (UInt16 × UInt8) :=
      [(0xFF01, 0x4F), (0xFF02, 0x81), (0xFF02, 0x81), (0xFF01, 0x55)]
    ((startedWith sendTwice).afterSteps 7).HasWritten writes ∧
      ((startedWith sendTwice).afterSteps 7).serialOutput.toList = [0x4F, 0x4F] := by
  intro writes
  have short : (startImage sendTwice).size = 256 := by decide +kernel
  have started : (new .standard).act (.call (.loadBoot (startImage sendTwice))) =
      startedWith sendTwice := by
    rw [act, apply, loadBoot_startImage short]
  have restarts : (HostAction.call (.loadBoot (startImage sendTwice))).restarts = true := by
    decide +kernel
  have begun : (startedWith sendTwice).HasWritten [] := by
    rw [← started]
    exact (HasWritten.new .standard).restarted restarts
  have same : (startedWith sendTwice).writesOver 7 = writes := by decide +kernel
  have written := begun.afterSteps 7
  rw [same, List.nil_append] at written
  exact ⟨written, (serialOutput_eq_sentBy.2.1 _ writes written).1⟩

end Machine

end Dmg
