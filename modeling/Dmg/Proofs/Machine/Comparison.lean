import Dmg.Proofs.Board.Spans
import Dmg.Proofs.Machine.Service

/-!
# The comparison of lines behind a turn

The status register says whether the line that is drawn is the one to compare it
with, and a switch next to it lets the agreement ask for an interrupt.  Each of
the two lines changes in its own time, and a dispatch takes the request back.
Between the parts of a turn the bit or the request can therefore be missing.

Every turn ends with time for the devices, though, and no time passes for a display
that is on without a comparison.  So behind a turn both are there, whatever the
program has written.
-/

namespace Dmg

open Interrupt

namespace Video

/-! ## Lines that have been compared -/

theorem enables_compareBit_iff {video : Video} {requests : UInt8}
    (compared : video.Compared requests) : video.Enables compareBit ↔ video.ly = video.lyc := by
  have outcome := compared.stat
  rw [Enables, ← outcome, comparedStat]
  split
  · next agree =>
      refine iff_of_true ?_ agree
      rw [Bits.and_or_distrib, UInt8.and_self]
      intro none
      have bit := (UInt8.or_eq_zero_iff.mp none).2
      exact absurd bit (by decide)
  · next differ =>
      refine iff_of_false (fun some => some ?_) differ
      rw [UInt8.and_assoc]
      exact UInt8.and_zero

/-- Lines that agree have asked, if they may. -/
theorem Compared.raised {video : Video} {requests : UInt8} (compared : video.Compared requests)
    (enabled : video.Enables compareSwitch) (agree : video.ly = video.lyc) :
    lcdStat.RaisedIn requests := by
  have asked : lcdStat.RaisedIn video.compareRequest :=
    (raisedIn_compareRequest (SameSettings.refl video)).mpr
      ⟨rfl, enabled, congrArg UInt8.toNat agree⟩
  rw [← compared.asked]
  exact raisedIn_or.mpr (Or.inr asked)

end Video

namespace Board

/-! ## Time on the board -/

/-- What a program reads of the comparison is what the lines that it reads come
to. -/
structure ComparesLines (board : Board) : Prop where
  flag : board.read 0xFF41 &&& 0x04 ≠ 0 ↔ board.read 0xFF44 = board.read 0xFF45
  request : board.read 0xFF41 &&& 0x40 ≠ 0 -> board.read 0xFF41 &&& 0x04 ≠ 0 ->
    lcdStat.RaisedIn (board.read requestAddress)

/-- The raised bit of the status register hides none of the others. -/
theorem read_stat_and {board : Board} {switch : UInt8} (other : 0x80 &&& switch = 0) :
    board.read 0xFF41 &&& switch ≠ 0 ↔ board.video.Enables switch := by
  change (0x80 ||| board.video.stat) &&& switch ≠ 0 ↔ _
  rw [Bits.and_or_distrib, other, UInt8.zero_or]
  rfl

theorem comparesLines_of_compared {board : Board} {requests : UInt8}
    (compared : board.video.Compared requests)
    (put : lcdStat.RaisedIn requests -> lcdStat.RaisedIn board.interrupts.requests) :
    board.ComparesLines := by
  have outcome := Video.enables_compareBit_iff compared
  constructor
  · rw [read_stat_and rfl]
    exact outcome
  · rw [read_stat_and rfl, read_stat_and rfl, raisedIn_read_requestAddress]
    intro enabled agrees
    exact put (compared.raised enabled (outcome.mp agrees))

/-- When time has passed for a display that is on, the lines have been compared. -/
theorem comparesLines_advance {board : Board} {timing : Timing}
    (on : (board.advance timing).video.control.isOn = true) :
    (board.advance timing).ComparesLines := by
  rw [isOn_advance] at on
  refine comparesLines_of_compared (Video.compared_step on timing.clocks) fun raised => ?_
  change lcdStat.RaisedIn (board.interrupts.requests ||| _)
  exact raisedIn_or.mpr (Or.inr (raisedIn_or.mpr (Or.inl raised)))

end Board

namespace Machine

/-! ## Turns -/

/-- The last thing in a turn that succeeds is that the devices go on: for the time
of the step, or for that of a dispatch. -/
theorem board_of_step {machine next : Machine} {timing : Timing}
    (stepped : machine.step = (.ok timing, next)) :
    ∃ before spent, next.board = Board.advance before spent := by
  rcases step_cases stepped with ⟨-, executed, -⟩
  rcases Wired.instruction_cases executed with ⟨spent, taken, -, reached, outcome⟩
  rcases outcome with ⟨-, -, after⟩ | ⟨source, vector, -, -, after⟩
  · refine ⟨taken.memory, spent, ?_⟩
    rw [board, after, reached]
    rfl
  · refine ⟨(machine.core.atCheck.dispatch source vector).memory, Wired.dispatchTiming, ?_⟩
    rw [board, after]
    rfl

/-- Behind a turn that leaves the display on, the bit for the comparison is raised
exactly if the lines agree, and if it may ask for an interrupt it has. -/
theorem comparison_of_step {machine next : Machine} {timing : Timing}
    (stepped : machine.step = (.ok timing, next)) (on : next.peek 0xFF40 &&& 0x80 ≠ 0) :
    (next.peek 0xFF41 &&& 0x04 ≠ 0 ↔ next.peek 0xFF44 = next.peek 0xFF45) ∧
    (next.peek 0xFF41 &&& 0x40 ≠ 0 -> next.peek 0xFF41 &&& 0x04 ≠ 0 ->
      lcdStat.RaisedIn (next.peek requestAddress)) := by
  rcases board_of_step stepped with ⟨before, spent, after⟩
  have shown : next.board.video.control.isOn = true := bne_iff_ne.mpr on
  have compares : next.board.ComparesLines := by
    rw [after] at shown ⊢
    exact Board.comparesLines_advance shown
  exact ⟨compares.flag, compares.request⟩

/-- A machine in line 128 that is about to dispatch the request of an earlier
comparison, with the stack on top of the register of the line to compare with. -/
def pushingLine : Machine :=
  ((new .standard).mapCpu fun cpu =>
    { cpu with
      ime := true
      registers := { cpu.registers with pc := 0x8000, sp := 0xFF46 } }).mapBoard fun board =>
    { board with
      video := { board.video with ly := 128, lyc := 5, stat := 0x42 }
      interrupts := ⟨2, 2⟩ }

/-- The dispatch takes the request back and puts the high byte of the program
counter into the register.  Now the lines agree, and the request is there again. -/
theorem comparison_of_push :
    ∃ timing next, pushingLine.step = (.ok timing, next) ∧ pushingLine.turn.dispatched = true ∧
      next.peek 0xFF45 = 128 ∧ next.peek 0xFF41 &&& 0x04 ≠ 0 ∧
      lcdStat.RaisedIn (next.peek requestAddress) := by
  have plain : pushingLine.turn = ⟨some .nop, true⟩ := by
    decide +kernel
  rcases step_of_operation rfl (congrArg Turn.operation? plain) with ⟨timing, next, stepped⟩
  have after : next = pushingLine.step.2 := by rw [stepped]
  have line : next.peek 0xFF44 = 128 ∧ next.peek 0xFF45 = 128 := by
    rw [after]
    decide +kernel
  have switches : next.peek 0xFF40 &&& 0x80 ≠ 0 ∧ next.peek 0xFF41 &&& 0x40 ≠ 0 := by
    rw [after]
    decide +kernel
  rcases comparison_of_step stepped switches.1 with ⟨flag, request⟩
  have raised := flag.mpr (line.1.trans line.2.symm)
  exact ⟨timing, next, stepped, congrArg Turn.dispatched plain, line.2, raised,
    request switches.2 raised⟩

end Machine

end Dmg
