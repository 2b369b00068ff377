import Dmg.Proofs.Machine.Halt
import Dmg.Proofs.Machine.History

/-!
# A machine that has stopped

A program that stops the processor leaves the machine to its owner.  Frames do nothing any
more.  A call for an instruction fetches none: time goes by, and the processor looks for
requests all the same.

So it can happen that a request is dispatched.  Its handler does not run then, and there is
no second dispatch, since the first one takes the permission away and no instruction is
executed that could give it back.
-/

namespace Dmg

namespace Call

/-- Whether a call neither wakes the processor nor turns the power off. -/
def isPassive : Call -> Bool
  | .runFrame | .step | .addBreakpoint _ | .removeBreakpoint _ | .setButton _ _ => true
  | .resume | .reset | .load _ | .loadBoot _ => false

end Call

namespace Board

/-- The picture and the timer have gone on for some machine cycles. -/
structure GoesOn (first second : Board) (cycles : Nat) : Prop where
  video : second.video = (first.video.step (4 * cycles)).1
  timer : second.timer = (first.timer.step cycles).1

end Board

namespace Wired

/-- What a program works with is as it was: its registers, its permission for interrupts and
the latch of EI, and its bytes. -/
structure Undisturbed (first last : Wired Board) : Prop where
  registers : last.registers = first.registers
  ime : last.cpu.ime = first.cpu.ime
  enablePending : last.cpu.enablePending = first.cpu.enablePending
  memories : first.memory.SameMemories last.memory

theorem Undisturbed.refl (wired : Wired Board) : wired.Undisturbed wired :=
  ⟨rfl, rfl, rfl, .refl wired.memory⟩

theorem Undisturbed.trans {first second third : Wired Board} (early : first.Undisturbed second)
    (late : second.Undisturbed third) : first.Undisturbed third :=
  ⟨late.registers.trans early.registers, late.ime.trans early.ime,
    late.enablePending.trans early.enablePending, early.memories.trans late.memories⟩

/-- An idle cycle lets time pass. -/
theorem undisturbed_atCheck {wired : Wired Board} (idle : wired.cpu.isIdle = true) :
    wired.Undisturbed wired.atCheck ∧ wired.memory.GoesOn wired.atCheck.memory 1 := by
  rw [atCheck_of_isIdle idle]
  exact ⟨⟨rfl, rfl, rfl, wired.memory.sameMemories_advance idleTiming⟩, ⟨rfl, rfl⟩⟩

end Wired

namespace Machine

/-- How many interrupts some machines dispatch when they are called for an instruction. -/
def dispatchCount (machines : List Machine) : Nat :=
  machines.countP fun machine => machine.turn.dispatched

theorem dispatchCount_append (early late : List Machine) :
    dispatchCount (early ++ late) = dispatchCount early + dispatchCount late :=
  List.countP_append

/-- A machine that has stopped and that no opcode has frozen.  Its frames have clock cycles
to spend. -/
structure Parked (machine : Machine) : Prop where
  healthy : machine.fault = none
  stopped : machine.cpu.stopped = true
  budget : 0 < machine.config.cyclesPerFrame

/-- What a call for an instruction amounts to where none is fetched. -/
structure Lingers (machine : Machine) : Prop where
  operation : machine.turn.operation? = none
  /-- The processor does not reach for its memory. -/
  accesses : machine.core.stepAccesses = []
  quiet : machine.turn.dispatched = false ->
    machine.step.1 = .ok ⟨4⟩ ∧ machine.board.GoesOn machine.step.2.board 1
  /-- A dispatch takes the time of four more machine cycles, and they pass when it has
  written what it writes. -/
  dispatching : machine.turn.dispatched = true ->
    machine.step.1 = .ok ⟨20⟩ ∧ machine.board.GoesOn machine.core.atCheck.memory 1 ∧
      ∃ source vector,
        Wired.Dispatched machine.core.atCheck machine.step.2.core source vector ∧
          (machine.core.atCheck.handedOver source).GoesOn machine.step.2.board 4

/-- One interrupt was dispatched, when one of the machines was called.  Before and after it
nothing was disturbed, and the dispatch itself changed two registers, the permission, and
what is behind the addresses that it wrote to. -/
structure InterruptedOnce (first called last : Machine) : Prop where
  permitted : first.cpu.ime = true
  before : first.core.Undisturbed called.core.atCheck
  handled : ∃ source vector,
    Wired.Dispatched called.core.atCheck called.step.2.core source vector ∧
      called.step.2.cpu.registers =
        { first.cpu.registers with pc := vector, sp := first.cpu.registers.sp - 2 }
  enablePending : called.step.2.cpu.enablePending = first.cpu.enablePending
  after : called.step.2.core.Undisturbed last.core

/-- From one machine to the other there was at most one dispatch, when one of the given
machines was called for an instruction. -/
def InterruptedAtMostOnce (first : Machine) (called : List Machine) (last : Machine) : Prop :=
  (dispatchCount called = 0 ∧ first.core.Undisturbed last.core) ∨
    (dispatchCount called = 1 ∧ ∃ machine ∈ called, machine.turn.dispatched = true ∧
      first.InterruptedOnce machine last)

/-- A dispatch leaves no permission for another one. -/
theorem InterruptedOnce.not_permitted {first called last : Machine}
    (once : first.InterruptedOnce called last) : last.cpu.ime = false := by
  rcases once.handled with ⟨source, vector, dispatched, -⟩
  exact once.after.ime.trans dispatched.ime

theorem InterruptedAtMostOnce.append {first second third : Machine} {early late : List Machine}
    (sooner : first.InterruptedAtMostOnce early second)
    (later : second.InterruptedAtMostOnce late third) :
    first.InterruptedAtMostOnce (early ++ late) third := by
  rw [InterruptedAtMostOnce, dispatchCount_append]
  rcases sooner with ⟨none, still⟩ | ⟨one, called, member, dispatched, once⟩
  · rcases later with ⟨noneLater, stillLater⟩ | ⟨one, called, member, dispatched, once⟩
    · left
      rw [none, noneLater]
      exact ⟨rfl, still.trans stillLater⟩
    · right
      rw [none, one]
      refine ⟨rfl, called, List.mem_append_right early member, dispatched, ?_⟩
      rcases once.handled with ⟨source, vector, handled, registers⟩
      have same : second.cpu.registers = first.cpu.registers := still.registers
      rw [same] at registers
      exact {
        permitted := still.ime.symm.trans once.permitted
        before := still.trans once.before
        handled := ⟨source, vector, handled, registers⟩
        enablePending := once.enablePending.trans still.enablePending
        after := once.after }
  · rcases later with ⟨noneLater, stillLater⟩ | ⟨-, other, -, -, again⟩
    · right
      rw [one, noneLater]
      exact ⟨rfl, called, List.mem_append_left late member, dispatched,
        { once with after := once.after.trans stillLater }⟩
    · have permitted := again.permitted
      rw [once.not_permitted] at permitted
      cases permitted

/-! ## One call -/

section Parked

variable {machine : Machine}

theorem Parked.isIdle (parked : machine.Parked) : machine.core.cpu.isIdle = true := by
  have stopped : machine.core.cpu.stopped = true := parked.stopped
  rw [Cpu.isIdle, stopped, Bool.or_true]

/-- A frame of a stopped machine leaves the machine as it is. -/
theorem Parked.runFrame_eq (parked : machine.Parked) :
    machine.runFrame = (.ok .stopped, machine) ∧ machine.frameCalls = [] := by
  rcases runFrame_of_healthy parked.healthy with ⟨frame, calls⟩
  rw [frame, calls, runUntil, callsUntil, if_pos parked.budget, if_pos parked.budget,
    parked.stopped]
  exact ⟨rfl, rfl⟩

/-- A call for an instruction of a stopped machine fetches none, and there is a dispatch behind
it or not. -/
theorem Parked.step_cases (parked : machine.Parked) :
    (machine.turn = ⟨none, false⟩ ∧
      machine.step =
        (.ok Wired.idleTiming, { machine with core := machine.core.atCheck.endHalt })) ∨
    ∃ source vector, machine.turn = ⟨none, true⟩ ∧
      Wired.Dispatched machine.core.atCheck machine.step.2.core source vector ∧
      machine.step =
        (.ok (Wired.idleTiming + Wired.dispatchTiming),
          { machine with
            core := (machine.core.atCheck.dispatch source vector).advance
              Wired.dispatchTiming }) := by
  rw [turn, Wired.operation?, Wired.decoded?_eq_none_of_isIdle parked.isIdle, Wired.dispatches_eq,
    step_of_isIdle parked.healthy parked.isIdle]
  cases found : machine.core.atCheck.dispatched? with
  | none =>
      left
      rw [Wired.settleInterrupts_of_none found]
      exact ⟨rfl, rfl⟩
  | some handled =>
      right
      rcases handled with ⟨source, vector⟩
      rw [Wired.settleInterrupts_of_some found]
      exact ⟨source, vector, rfl, Wired.dispatched_of_dispatched? found, rfl⟩

theorem Parked.lingers (parked : machine.Parked) : machine.Lingers := by
  have accesses := Wired.stepAccesses_of_isIdle parked.isIdle
  rcases Wired.undisturbed_atCheck parked.isIdle with ⟨-, passed⟩
  rcases parked.step_cases with ⟨turn, step⟩ | ⟨source, vector, turn, spec, step⟩
  · refine ⟨congrArg Turn.operation? turn, accesses, ?_, ?_⟩
    · intro _
      rw [step]
      exact ⟨rfl, passed⟩
    · intro dispatched
      rw [turn] at dispatched
      cases dispatched
  · refine ⟨congrArg Turn.operation? turn, accesses, ?_, ?_⟩
    · intro quiet
      rw [turn] at quiet
      cases quiet
    · intro _
      rw [step] at spec ⊢
      exact ⟨rfl, passed, source, vector, spec, rfl, rfl⟩

/-- A call for an instruction keeps the machine parked. -/
theorem Parked.step (parked : machine.Parked) :
    machine.step.2.Parked ∧ machine.InterruptedAtMostOnce [machine] machine.step.2 := by
  rcases Wired.undisturbed_atCheck parked.isIdle with ⟨still, -⟩
  have stopped : machine.core.atCheck.cpu.stopped = true := by
    rw [Wired.atCheck_of_isIdle parked.isIdle]
    exact parked.stopped
  rcases parked.step_cases with ⟨turn, step⟩ | ⟨source, vector, turn, spec, step⟩
  · have quiet : machine.turn.dispatched = false := congrArg Turn.dispatched turn
    rw [step]
    constructor
    · exact ⟨parked.healthy, stopped, parked.budget⟩
    · left
      rw [dispatchCount, List.countP_singleton, quiet]
      exact ⟨rfl, ⟨still.registers, still.ime, still.enablePending, still.memories⟩⟩
  · have dispatched : machine.turn.dispatched = true := congrArg Turn.dispatched turn
    have permitted := ime_of_dispatched dispatched
    constructor
    · rw [step]
      exact ⟨parked.healthy, stopped, parked.budget⟩
    · right
      rw [dispatchCount, List.countP_singleton, dispatched]
      refine ⟨rfl, machine, List.mem_singleton_self machine, dispatched, ?_⟩
      exact {
        permitted := still.ime.symm.trans permitted
        before := still
        handled := by
          have registers : machine.core.atCheck.registers = machine.cpu.registers :=
            still.registers
          refine ⟨source, vector, spec, ?_⟩
          rw [step, ← registers]
          rfl
        enablePending := by
          rw [step]
          exact still.enablePending
        after := .refl machine.step.2.core }

/-- What the owner does that does not wake the processor keeps the machine parked. -/
theorem Parked.apply (parked : machine.Parked) {call : Call} (passive : call.isPassive = true) :
    (machine.apply call).Parked ∧
      machine.InterruptedAtMostOnce (machine.called call) (machine.apply call) := by
  cases call with
  | runFrame =>
      rcases parked.runFrame_eq with ⟨frame, nothing⟩
      rw [Machine.apply, called, frame, nothing]
      exact ⟨parked, Or.inl ⟨rfl, .refl machine.core⟩⟩
  | step => exact parked.step
  | addBreakpoint address =>
      rw [Machine.apply, addBreakpoint_eq_steered]
      exact ⟨⟨parked.healthy, parked.stopped, parked.budget⟩, Or.inl ⟨rfl, .refl machine.core⟩⟩
  | removeBreakpoint address =>
      exact ⟨⟨parked.healthy, parked.stopped, parked.budget⟩, Or.inl ⟨rfl, .refl machine.core⟩⟩
  | setButton button held =>
      constructor
      · exact ⟨parked.healthy, parked.stopped, parked.budget⟩
      · exact Or.inl ⟨rfl, ⟨rfl, rfl, rfl, ⟨rfl, rfl, rfl, ⟨rfl, rfl⟩⟩⟩⟩
  | resume | reset | load image | loadBoot image => cases passive

/-- No call has an instruction fetched. -/
theorem Parked.lingers_of_called (parked : machine.Parked) {call : Call} {waiting : Machine}
    (member : waiting ∈ machine.called call) : waiting.Lingers := by
  cases call with
  | runFrame =>
      rw [called, parked.runFrame_eq.2] at member
      cases member
  | step =>
      rw [List.mem_singleton.mp member]
      exact parked.lingers
  | _ => cases member

end Parked

/-! ## Any number of calls -/

theorem Parked.applyAll {machine : Machine} (parked : machine.Parked) {calls : List Call}
    (passive : ∀ call ∈ calls, call.isPassive = true) :
    (calls.foldl Machine.apply machine).Parked ∧
      (∀ waiting ∈ machine.calledOver calls, waiting.Lingers) ∧
      machine.InterruptedAtMostOnce (machine.calledOver calls)
        (calls.foldl Machine.apply machine) := by
  induction calls generalizing machine with
  | nil =>
      refine ⟨parked, ?_, Or.inl ⟨rfl, .refl machine.core⟩⟩
      intro waiting member
      cases member
  | cons call calls inductionHypothesis =>
      rcases List.forall_mem_cons.mp passive with ⟨first, others⟩
      rcases parked.apply first with ⟨still, sooner⟩
      rcases inductionHypothesis still others with ⟨last, lingering, later⟩
      refine ⟨last, ?_, sooner.append later⟩
      intro waiting member
      rcases List.mem_append.mp member with now | thereafter
      · exact parked.lingers_of_called now
      · exact lingering waiting thereafter

/-- A stopped machine stays where it is, whatever its owner does that does not wake it.  At
any time a frame says that it has stopped, and changes nothing.  A call for an instruction
fetches none and lets a machine cycle pass.  At most one interrupt is dispatched in all that
time, and but for that everything that the program works with is as it was. -/
theorem stopped_until_woken {machine : Machine} (parked : machine.Parked) {calls : List Call}
    (passive : ∀ call ∈ calls, call.isPassive = true) :
    (∀ earlier later, calls = earlier ++ later ->
      (earlier.foldl apply machine).cpu.stopped = true ∧
        (earlier.foldl apply machine).runFrame = (.ok .stopped, earlier.foldl apply machine)) ∧
    (∀ waiting ∈ machine.calledOver calls, waiting.Lingers) ∧
    machine.InterruptedAtMostOnce (machine.calledOver calls) (calls.foldl apply machine) := by
  constructor
  · intro earlier later split
    have passiveEarlier : ∀ call ∈ earlier, call.isPassive = true := by
      intro call member
      apply passive
      rw [split]
      exact List.mem_append_left later member
    rcases parked.applyAll passiveEarlier with ⟨between, -, -⟩
    exact ⟨between.stopped, between.runFrame_eq.1⟩
  · rcases parked.applyAll passive with ⟨-, lingering, once⟩
    exact ⟨lingering, once⟩

/-- A machine that a program has stopped while two requests wait. -/
def stoppedMachine : Machine :=
  ((new .standard).mapCpu fun cpu => { cpu with ime := true, stopped := true }).mapBoard
    fun board => { board with interrupts := ⟨0x05, 0x05⟩ }

/-- Only the first of the two is dispatched. -/
theorem stoppedMachine_dispatches_once :
    let calls := [.runFrame, .step, .setButton .start true, .addBreakpoint 0x40, .step, .step,
      .runFrame]
    stoppedMachine.Parked ∧ (∀ call ∈ calls, Call.isPassive call = true) ∧
      (stoppedMachine.apply .runFrame).runFrame.1 = .ok .stopped ∧
      dispatchCount (stoppedMachine.calledOver calls) = 1 ∧
      (∀ waiting ∈ stoppedMachine.calledOver calls, waiting.Lingers) ∧
      ∃ waiting ∈ stoppedMachine.calledOver calls,
        stoppedMachine.InterruptedOnce waiting (calls.foldl apply stoppedMachine) := by
  intro calls
  have parked : stoppedMachine.Parked := ⟨rfl, rfl, by decide⟩
  have passive : ∀ call ∈ calls, Call.isPassive call = true := by
    decide
  have count : dispatchCount (stoppedMachine.calledOver calls) = 1 := by
    decide +kernel
  rcases stopped_until_woken parked passive with ⟨stays, lingering, once⟩
  rcases stays [.runFrame] _ rfl with ⟨-, frame⟩
  rcases once with ⟨none, -⟩ | ⟨-, waiting, member, -, interrupted⟩
  · rw [count] at none
    cases none
  · exact ⟨parked, passive, congrArg Prod.fst frame, count, lingering, waiting, member,
      interrupted⟩

end Machine

end Dmg
