import Dmg.Board.Basic
import Dmg.Proofs.Timer
import Dmg.Proofs.Video.Spans

/-!
# Time on the board

The processor lets the devices go on after each of its steps, for as long as the
step took.  What the devices come to does not depend on how the time is divided
into steps, nor on which of them goes on first: they do not see each other, and
the requests of both only add up.
-/

namespace Dmg

theorem Timing.machine_add {early : Timing} (whole : 4 ∣ early.clocks) (late : Timing) :
    (early + late).machine = early.machine + late.machine := by
  rw [machine, machine, machine, clocks_add]
  omega

namespace Board

/-- Let the video unit alone go on, for some clock cycles. -/
def advanceVideo (board : Board) (cycles : Nat) : Board :=
  let shown := board.video.step cycles
  { board with video := shown.1 }.request shown.2

/-- Let the timer alone go on, for some machine cycles. -/
def advanceTimer (board : Board) (cycles : Nat) : Board :=
  let counted := board.timer.step cycles
  { board with timer := counted.1 }.request counted.2

theorem isOn_advance (board : Board) (timing : Timing) :
    (board.advance timing).video.control.isOn = board.video.control.isOn := by
  change (board.video.step timing.clocks).1.control.isOn = _
  cases on : board.video.control.isOn with
  | true => exact Video.isOn_step on timing.clocks
  | false =>
      rw [Video.step_of_off on]
      exact on

theorem advance_eq_video_timer (board : Board) (timing : Timing) :
    board.advance timing = (board.advanceVideo timing.clocks).advanceTimer timing.machine := by
  rw [advance, advanceVideo, advanceTimer]
  simp only [request, InterruptControl.request, UInt8.or_assoc]

theorem advance_eq_timer_video (board : Board) (timing : Timing) :
    board.advance timing = (board.advanceTimer timing.machine).advanceVideo timing.clocks := by
  rw [advance, advanceVideo, advanceTimer]
  simp only [request, InterruptControl.request, UInt8.or_assoc]
  rw [UInt8.or_comm (board.video.step timing.clocks).2]

/-- A span of whole machine cycles and another one after it are one span. -/
theorem advance_add (board : Board) {early : Timing} (whole : 4 ∣ early.clocks) (late : Timing) :
    (board.advance early).advance late = board.advance (early + late) := by
  have shown := board.video.step_add early.clocks late.clocks
  have counted := board.timer.step_add early.machine late.machine
  rw [advance, advance, advance, Timing.clocks_add, Timing.machine_add whole, shown, counted]
  simp only [request, InterruptControl.request]
  congr 2
  ac_rfl

/-- The indices of the line drawn last when time has passed for the board. -/
def lastIndices (board : Board) (kept : IndexLine) (timing : Timing) : IndexLine :=
  Video.lastIndices kept (board.video.moments (.step timing.clocks))

/-- Two spans lead to the same board as one, and to the same line in the course
of being composed.  Within a span it makes no difference which device goes on
first. -/
theorem time_is_additive (board : Board) {early : Timing} (whole : 4 ∣ early.clocks)
    (late : Timing) (kept : IndexLine) :
    (board.advance early).advance late = board.advance (early + late) ∧
    (board.advance early).lastIndices (board.lastIndices kept early) late =
      board.lastIndices kept (early + late) ∧
    ∀ timing : Timing,
      (board.advanceVideo timing.clocks).advanceTimer timing.machine = board.advance timing ∧
      (board.advanceTimer timing.machine).advanceVideo timing.clocks = board.advance timing := by
  refine ⟨board.advance_add whole late, ?_, fun timing => ⟨?_, ?_⟩⟩
  · exact (Video.lastIndices_moments_add board.video early.clocks late.clocks kept).symm
  · exact (board.advance_eq_video_timer timing).symm
  · exact (board.advance_eq_timer_video timing).symm

/-- A board on which every event asks for an interrupt, and the interval counter
is nearly full. -/
def eventful : Board :=
  { empty .green with
    video := { Video.initial .green with stat := 0x7A, lyc := 1 }
    timer := ⟨0, 0xFE, 0xAB, 0x05, 0, 0⟩ }

/-- A span of a whole line and one that ends a mode of the next line are one span,
whichever device goes on first. -/
theorem line_is_additive :
    4 ∣ (Timing.mk 456).clocks ∧
    (eventful.advance ⟨456⟩).advance ⟨84⟩ = eventful.advance (⟨456⟩ + ⟨84⟩) ∧
    (eventful.advanceTimer 135).advanceVideo 540 = eventful.advance ⟨540⟩ := by
  have whole : 4 ∣ (Timing.mk 456).clocks := ⟨114, rfl⟩
  rcases eventful.time_is_additive whole ⟨84⟩ (Vector.replicate 160 0) with ⟨together, -, order⟩
  exact ⟨whole, together, (order ⟨540⟩).2⟩

end Board

end Dmg
