import Dmg.Proofs.Board.Requests
import Dmg.Proofs.Machine.Handler

/-!
# Requests over a turn

A turn touches the request register in many places: the devices put requests in
twice, and a dispatch takes one back in between.  As long as the program itself
leaves the register alone, a request ends in one way only, which is its
dispatch.  The source that is dispatched is the lowest one that asks, is
permitted and has a handler.
-/

namespace Dmg

open Interrupt

namespace Wired

/-- The requests that are permitted, as the processor reads them. -/
def waiting (wired : Wired Board) : UInt8 :=
  wired.memory.read permissionAddress &&& wired.memory.read requestAddress

theorem raisedIn_pending {source : Interrupt} {wired : Wired Board} :
    source.RaisedIn wired.pending ↔ source.RaisedIn wired.waiting := by
  change source.RaisedIn (wired.waiting &&& allMask) ↔ _
  rw [raisedIn_and]
  exact and_iff_left (raisedIn_allMask source)

/-- A processor that looks for requests dispatches one if that is permitted and
any is waiting that has a handler. -/
theorem dispatches_iff {wired : Wired Board} :
    wired.dispatches = true ↔ wired.atCheck.cpu.ime = true ∧
      ∃ source : Interrupt, source ≠ .serial ∧ source.RaisedIn wired.atCheck.waiting := by
  rw [dispatches_eq, dispatched?]
  cases wired.atCheck.cpu.ime with
  | false =>
      refine iff_of_false Bool.false_ne_true ?_
      rintro ⟨permitted, -⟩
      exact Bool.false_ne_true permitted
  | true =>
      rw [if_pos rfl, isSome_first?_iff, and_iff_right rfl]
      constructor
      · rintro ⟨source, handled, raised⟩
        exact ⟨source, handled, raisedIn_pending.mp raised⟩
      · rintro ⟨source, handled, raised⟩
        exact ⟨source, handled, raisedIn_pending.mpr raised⟩

/-- A source was dispatched between one state and the other. -/
structure Dispatched (check next : Wired Board) (source : Interrupt) (vector : UInt16) : Prop where
  handler : (source, vector) ∈ [(vblank, 0x40), (lcdStat, 0x48), (timer, 0x50), (joypad, 0x60)]
  waiting : source.RaisedIn check.waiting
  lowest : ∀ other : Interrupt, other ≠ .serial -> other.place < source.place ->
    ¬ other.RaisedIn check.waiting
  pc : next.registers.pc = vector
  sp : next.registers.sp = check.registers.sp - 2
  ime : next.cpu.ime = false
  halted : next.cpu.halted = false
  /-- The request is taken back, the program counter is saved, its high byte
  first, and the devices go on for the time that this takes. -/
  memory : next.memory =
    (((check.memory.write requestAddress
        (check.memory.read requestAddress &&& ~~~source.mask)).write
          (check.registers.sp - 1) (Word.high check.registers.pc)).write
            (check.registers.sp - 2) (Word.low check.registers.pc)).advance dispatchTiming

/-- The board behind a dispatch, before the devices go on: the request is taken
back, and the program counter is on the stack. -/
def handedOver (check : Wired Board) (source : Interrupt) : Board :=
  ((check.memory.write requestAddress
      (check.memory.read requestAddress &&& ~~~source.mask)).write
        (check.registers.sp - 1) (Word.high check.registers.pc)).write
          (check.registers.sp - 2) (Word.low check.registers.pc)

theorem dispatched_of_dispatched? {check : Wired Board} {source : Interrupt} {vector : UInt16}
    (found : check.dispatched? = some (source, vector)) :
    Dispatched check ((check.dispatch source vector).advance dispatchTiming) source vector := by
  rw [dispatched?] at found
  split at found
  · rcases first?_spec found with ⟨handler, raised, lowest⟩
    exact {
      handler := handler
      waiting := raisedIn_pending.mp raised
      lowest := fun other handled lower asked =>
        lowest other handled lower (raisedIn_pending.mpr asked)
      pc := rfl
      sp := rfl
      ime := rfl
      halted := rfl
      memory := rfl }
  · cases found

/-- A dispatch takes back the request of its source and no other. -/
theorem raisedIn_write_requestAddress {board : Board} {source other : Interrupt} :
    other.RaisedIn (board.write requestAddress
        (board.read requestAddress &&& ~~~source.mask)).interrupts.requests ↔
      other.RaisedIn board.interrupts.requests ∧ other ≠ source := by
  change other.RaisedIn ((board.read requestAddress &&& ~~~source.mask) &&& allMask) ↔ _
  rw [raisedIn_and, raisedIn_and, raisedIn_not, raisedIn_mask, Board.raisedIn_read_requestAddress]
  exact and_iff_left (raisedIn_allMask other)

end Wired

namespace Machine

/-- What the devices and the program did before requests were looked for. -/
theorem onlyAdds_atCheck {machine next : Machine} {timing : Timing}
    (stepped : machine.step = (.ok timing, next))
    (unwritten : ∀ write ∈ machine.core.stepWrites, write.1 ≠ requestAddress) :
    OnlyAdds machine.board.interrupts.requests
      machine.core.atCheck.memory.interrupts.requests := by
  rcases step_cases stepped with ⟨-, executed, -⟩
  rcases Wired.instruction_cases executed with ⟨spent, taken, succeeded, reached, -⟩
  have kept := Wired.onlyAdds_step unwritten
  rw [succeeded] at kept
  rw [reached]
  exact kept.trans (taken.memory.onlyAdds_advance spent)

/-- A turn that dispatches an interrupt dispatches one source. -/
theorem exists_dispatched {machine next : Machine} {timing : Timing}
    (stepped : machine.step = (.ok timing, next)) (dispatched : machine.turn.dispatched = true) :
    ∃ source vector, Wired.Dispatched machine.core.atCheck next.core source vector := by
  have found := Wired.dispatches_eq machine.core
  change machine.turn.dispatched = _ at found
  rcases step_cases stepped with ⟨-, executed, -⟩
  rcases Wired.instruction_cases executed with ⟨spent, taken, -, -, outcome⟩
  rcases outcome with ⟨none, -, -⟩ | ⟨source, vector, some, -, after⟩
  · rw [found, none] at dispatched
    cases dispatched
  · rw [after]
    exact ⟨source, vector, Wired.dispatched_of_dispatched? some⟩

/-- Behind the dispatch of a source the requests are those that were waiting
without its own, and what the devices have put in since. -/
theorem onlyAdds_dispatched {check next : Wired Board} {source : Interrupt} {vector : UInt16}
    (dispatched : Wired.Dispatched check next source vector)
    (high : check.registers.sp - 1 ≠ requestAddress)
    (low : check.registers.sp - 2 ≠ requestAddress) :
    OnlyAdds (check.memory.write requestAddress
        (check.memory.read requestAddress &&& ~~~source.mask)).interrupts.requests
      next.memory.interrupts.requests := by
  rw [dispatched.memory]
  exact ((Board.onlyAdds_write _ _ high).trans (Board.onlyAdds_write _ _ low)).trans
    (Board.onlyAdds_advance _ _)

/-- A turn whose program does not write to the request register loses no request
but the one that it dispatches, lets no request arise that nobody made, and
dispatches the lowest source that waits, whenever that is permitted. -/
theorem requests_of_step {machine next : Machine} {timing : Timing}
    (stepped : machine.step = (.ok timing, next))
    (unwritten : ∀ write ∈ machine.core.stepWrites, write.1 ≠ requestAddress)
    (unpushed : machine.turn.dispatched = true ->
      machine.core.atCheck.registers.sp - 1 ≠ requestAddress ∧
        machine.core.atCheck.registers.sp - 2 ≠ requestAddress) :
    (machine.turn.dispatched = true ↔ machine.core.atCheck.cpu.ime = true ∧
      ∃ source : Interrupt, source ≠ .serial ∧ source.RaisedIn machine.core.atCheck.waiting) ∧
    (machine.turn.dispatched = true -> ∃ source vector,
      Wired.Dispatched machine.core.atCheck next.core source vector ∧
      ∀ other : Interrupt, other ≠ source ->
        other.RaisedIn (machine.peek requestAddress) ->
          other.RaisedIn (next.peek requestAddress)) ∧
    (machine.turn.dispatched = false -> ∀ source : Interrupt,
      source.RaisedIn (machine.peek requestAddress) ->
        source.RaisedIn (next.peek requestAddress)) ∧
    ∀ source : Interrupt, source = .serial ∨ source = .joypad ->
      source.RaisedIn (next.peek requestAddress) ->
        source.RaisedIn (machine.peek requestAddress) := by
  have early := onlyAdds_atCheck stepped unwritten
  rcases step_cases stepped with ⟨-, executed, -⟩
  rcases Wired.instruction_cases executed with ⟨spent, taken, -, -, outcome⟩
  have found := Wired.dispatches_eq machine.core
  refine ⟨Wired.dispatches_iff, ?_⟩
  simp only [peek, Board.raisedIn_read_requestAddress]
  rcases outcome with ⟨none, -, after⟩ | ⟨source, vector, some, -, after⟩
  · rw [none] at found
    change machine.turn.dispatched = false at found
    rw [found]
    have same : next.board.interrupts = machine.core.atCheck.memory.interrupts := by
      rw [board, after]
      rfl
    rw [same]
    exact ⟨nofun, fun _ => early.kept, fun source untimed => early.not_added untimed⟩
  · rw [some] at found
    change machine.turn.dispatched = true at found
    rw [found]
    have spec : Wired.Dispatched machine.core.atCheck next.core source vector := by
      rw [after]
      exact Wired.dispatched_of_dispatched? some
    have late := onlyAdds_dispatched spec (unpushed found).1 (unpushed found).2
    refine ⟨fun _ => ⟨source, vector, spec, fun other different raised => ?_⟩, nofun,
      fun other untimed raised => ?_⟩
    · have waits := early.kept other raised
      exact late.kept other (Wired.raisedIn_write_requestAddress.mpr ⟨waits, different⟩)
    · have waits := late.not_added untimed raised
      exact early.not_added untimed (Wired.raisedIn_write_requestAddress.mp waits).1

/-- With two sources waiting the lower one is dispatched, and the other waits
on. -/
theorem lowest_is_dispatched :
    ∃ timing next, interrupted.step = (.ok timing, next) ∧
      Wired.Dispatched interrupted.core.atCheck next.core vblank 0x40 ∧
      lcdStat.RaisedIn (next.peek requestAddress) := by
  have plain : interrupted.turn = ⟨some .nop, true⟩ := by
    decide +kernel
  have unwritten : interrupted.core.stepWrites = [] := by
    decide +kernel
  have pointer : interrupted.core.atCheck.registers.sp = 0xFFFE := by
    decide +kernel
  have waiting : vblank.RaisedIn interrupted.core.atCheck.waiting := by
    decide +kernel
  rcases step_of_operation rfl (congrArg Turn.operation? plain) with ⟨timing, next, stepped⟩
  have dispatched : interrupted.turn.dispatched = true := congrArg Turn.dispatched plain
  have spec := requests_of_step stepped
    (fun write member => by rw [unwritten] at member; cases member)
    (fun _ => by rw [pointer]; decide)
  rcases spec.2.1 dispatched with ⟨source, vector, handled, kept⟩
  have first : source = vblank := by
    cases source with
    | vblank => rfl
    | _ => exact False.elim (handled.lowest vblank nofun (by decide) waiting)
  subst first
  have address : vector = 0x40 := by
    have listed := handled.handler
    simpa using listed
  have second : lcdStat.RaisedIn (interrupted.peek requestAddress) := by
    decide +kernel
  exact ⟨timing, next, stepped, address ▸ handled, kept lcdStat nofun second⟩

end Machine

end Dmg
