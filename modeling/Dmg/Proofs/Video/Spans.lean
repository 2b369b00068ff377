import Dmg.Proofs.Bits
import Dmg.Proofs.Video.Publication

/-!
# Spans of time one after the other

Time may pass for the video unit in one span or in several.  Every span begins
with a comparison of lines, so chopping a span makes more comparisons.  They
change nothing: the lines were compared when the last of them moved on, and
what another comparison asks for has been asked for already.

The modes that run out are the same ones as well, each in the same state but for
the clock, so even what is kept only while a line is drawn comes out the same.
-/

namespace Dmg

namespace Video

/-! ## Comparing again -/

/-- The outcome of the comparison is in the status register, and the requests
that were made include the one that the comparison would make. -/
structure Compared (video : Video) (requests : UInt8) : Prop where
  stat : video.comparedStat = video.stat
  asked : requests ||| video.compareRequest = requests

/-- A mode begins without a trace of whether the lines were compared before. -/
theorem comparedStat_setMode (video : Video) (mode : Mode) :
    (video.setMode mode).comparedStat =
      (video.comparedStat &&& 0xFC) ||| mode.code := by
  have code : mode.code &&& ~~~compareBit = mode.code := by
    cases mode <;> rfl
  change (if video.ly = video.lyc then (video.stat &&& 0xFC ||| mode.code) ||| compareBit
    else (video.stat &&& 0xFC ||| mode.code) &&& ~~~compareBit) =
      (video.comparedStat &&& 0xFC) ||| mode.code
  rw [comparedStat]
  split
  · rw [Bits.and_or_distrib, Bits.or_right_comm]
    rfl
  · rw [Bits.and_or_distrib, code, Bits.and_right_comm]

theorem requestIf_of_switches {first second : Video} {switch : UInt8}
    (same : second.stat &&& switchMask = first.stat &&& switchMask)
    (covered : switchMask &&& switch = switch) :
    second.requestIf switch = first.requestIf switch := by
  have bits : second.stat &&& switch = first.stat &&& switch := by
    rw [← covered, ← UInt8.and_assoc, same, UInt8.and_assoc]
  rw [requestIf, requestIf, bits]

theorem compareRequest_congr {first second : Video} (same : SameSettings first second)
    (line : second.ly = first.ly) : second.compareRequest = first.compareRequest := by
  rw [compareRequest, compareRequest, line, same.lyc,
    requestIf_of_switches same.switches rfl]

theorem compared_thenCompare (changed : Video × UInt8) :
    Compared (thenCompare changed).1 (thenCompare changed).2 := by
  rw [thenCompare_eq]
  constructor
  · change (if changed.1.ly = changed.1.lyc then changed.1.comparedStat ||| compareBit
      else changed.1.comparedStat &&& ~~~compareBit) = changed.1.comparedStat
    rw [comparedStat]
    split
    · rw [UInt8.or_assoc, UInt8.or_self]
    · rw [UInt8.and_assoc, UInt8.and_self]
  · have same : SameSettings changed.1 { changed.1 with stat := changed.1.comparedStat } :=
      ⟨comparedStat_switches changed.1, rfl, rfl⟩
    rw [compareRequest_congr same rfl, UInt8.or_assoc, UInt8.or_self]

/-- Further requests do no harm. -/
theorem Compared.weaken {video : Video} {requests : UInt8} (compared : video.Compared requests)
    (earlier : UInt8) : video.Compared (earlier ||| requests) := by
  refine ⟨compared.stat, ?_⟩
  rw [UInt8.or_assoc, compared.asked]

theorem Compared.setMode {video : Video} {requests : UInt8} (compared : video.Compared requests)
    (mode : Mode) (later : UInt8) : (video.setMode mode).Compared (requests ||| later) := by
  constructor
  · rw [comparedStat_setMode, compared.stat]
    rfl
  · have same : SameSettings video (video.setMode mode) :=
      ⟨setMode_switches video mode, rfl, rfl⟩
    rw [compareRequest_congr same rfl, Bits.or_right_comm, compared.asked]

/-- Whenever the line changes the lines are compared, so nothing that happens
in the cycle of modes makes another comparison worth while. -/
theorem Compared.finishMode {video : Video} {requests : UInt8}
    (compared : video.Compared requests) :
    video.finishMode.1.Compared (requests ||| video.finishMode.2) := by
  rcases finishMode_cases video with
    ⟨-, after⟩ | ⟨-, sheet, map, after⟩ | ⟨-, -, after⟩ | ⟨-, -, after⟩ | ⟨-, -, after⟩ |
    ⟨-, -, after⟩
  · rw [after]
    exact compared.setMode .drawing 0
  · rw [after]
    have drawn : video.drawLine.Compared requests := ⟨compared.stat, compared.asked⟩
    have paused := drawn.setMode .hblank (video.requestIf hblankSwitch)
    exact ⟨paused.stat, paused.asked⟩
  · rw [after]
    exact (compared_thenCompare _).weaken requests
  · rw [after]
    exact (compared_thenCompare _).weaken requests
  · rw [after]
    exact (compared_thenCompare _).weaken requests
  · rw [after]
    exact (compared_thenCompare _).weaken requests

theorem Compared.withClock {video : Video} {requests : UInt8} (compared : video.Compared requests)
    (clock : Nat) : (video.withClock clock).Compared requests :=
  ⟨compared.stat, compared.asked⟩

theorem Compared.expireAll {video : Video} {requests : UInt8}
    (compared : video.Compared requests) :
    video.expireAll.1.Compared (requests ||| video.expireAll.2) := by
  induction video using expireAll.induct generalizing requests with
  | case1 video due inductionHypothesis =>
      have one : video.expire.1.Compared (requests ||| video.expire.2) := by
        rw [expire_eq]
        exact compared.finishMode.withClock _
      rw [expireAll_of_le due, ← UInt8.or_assoc]
      exact inductionHypothesis one
  | case2 video within =>
      rw [expireAll_of_lt (Nat.not_le.mp within), UInt8.or_zero]
      exact compared

theorem compared_elapse (video : Video) (cycles : Nat) :
    Compared (video.elapse cycles).1 (video.elapse cycles).2 := by
  have compared := compared_thenCompare (video, 0)
  rw [thenCompare, UInt8.zero_or] at compared
  exact compared.withClock _

theorem compared_step {video : Video} (on : video.control.isOn = true) (cycles : Nat) :
    Compared (video.step cycles).1 (video.step cycles).2 := by
  rw [step_of_on on]
  exact (compared_elapse video cycles).expireAll

/-- The clock moves on, and that is all. -/
def moveClock (video : Video) (cycles : Nat) : Video :=
  video.withClock (video.clock + cycles)

/-- A span that begins where another one ends only moves the clock on. -/
theorem Compared.elapse_eq {video : Video} {requests : UInt8} (compared : video.Compared requests)
    (cycles : Nat) : video.elapse cycles = (video.moveClock cycles, video.compareRequest) := by
  rw [elapse, compareLine_eq, compared.stat]
  rfl

theorem elapse_add (video : Video) (early late : Nat) :
    video.elapse (early + late) =
      ((video.elapse early).1.moveClock late, (video.elapse early).2) := by
  rw [elapse, elapse, ← Nat.add_assoc]
  rfl

/-! ## Modes that run out in two spans -/

theorem duration_le_moveClock {video : Video} (due : video.mode.duration <= video.clock)
    (late : Nat) : (video.moveClock late).mode.duration <= (video.moveClock late).clock :=
  Nat.le_add_right_of_le due

theorem expire_moveClock {video : Video} (due : video.mode.duration <= video.clock)
    (late : Nat) :
    (video.moveClock late).expire = (video.expire.1.moveClock late, video.expire.2) := by
  have clock : video.clock + late - video.mode.duration =
      video.clock - video.mode.duration + late := by
    omega
  rw [expire_eq, expire_eq, moveClock, finishMode_withClock]
  change (video.finishMode.1.withClock (video.clock + late - video.mode.duration), _) = _
  rw [clock]
  rfl

/-- The modes that run out within a longer clock are those that run out within
a shorter one and then those that run out within the rest. -/
theorem expireAll_moveClock (video : Video) (late : Nat) :
    (video.moveClock late).expireAll =
      ((video.expireAll.1.moveClock late).expireAll.1,
        video.expireAll.2 ||| (video.expireAll.1.moveClock late).expireAll.2) := by
  induction video using expireAll.induct with
  | case1 video due inductionHypothesis =>
      rw [expireAll_of_le (duration_le_moveClock due late), expire_moveClock due,
        inductionHypothesis, expireAll_of_le due, UInt8.or_assoc]
  | case2 video within =>
      rw [expireAll_of_lt (Nat.not_le.mp within), UInt8.zero_or]

theorem isOn_step {video : Video} (on : video.control.isOn = true) (cycles : Nat) :
    (video.step cycles).1.control.isOn = true := by
  rw [step_of_on on, (SameSettings.expireAll _).control, (SameSettings.elapse video cycles).control]
  exact on

/-- Two spans are one span of their lengths together. -/
theorem step_add (video : Video) (early late : Nat) :
    video.step (early + late) =
      (((video.step early).1.step late).1,
        (video.step early).2 ||| ((video.step early).1.step late).2) := by
  cases on : video.control.isOn with
  | false =>
      rw [step_of_off on, step_of_off on, step_of_off on, UInt8.or_self]
  | true =>
      have compared := compared_step on early
      have again : (video.step early).1.step late =
          (((video.step early).1.moveClock late).expireAll.1,
            (video.step early).1.compareRequest |||
              ((video.step early).1.moveClock late).expireAll.2) := by
        rw [step_of_on (isOn_step on early), compared.elapse_eq]
      rw [again, ← UInt8.or_assoc, compared.asked, step_of_on on (early + late), elapse_add,
        expireAll_moveClock, step_of_on on early, UInt8.or_assoc]

/-! ## What is kept while a line is drawn -/

/-- The indices of the line drawn last, of which there may be one already.  The
sprites of a line are painted with regard to them. -/
def lastIndices (kept : IndexLine) (moments : List Moment) : IndexLine :=
  moments.foldl (fun line moment => if moment.endsDrawing then moment.before.indexLine else line)
    kept

/-- The indices of a line do not depend on the clock. -/
theorem lastIndices_expiries_moveClock (video : Video) (late : Nat) (kept : IndexLine) :
    lastIndices kept (video.moveClock late).expiries =
      lastIndices (lastIndices kept video.expiries)
        (video.expireAll.1.moveClock late).expiries := by
  induction video using expiries.induct generalizing kept with
  | case1 video due inductionHypothesis =>
      rw [expiries, if_pos (duration_le_moveClock due late), expire_moveClock due,
        expiries.eq_1 video, if_pos due, expireAll_of_le due]
      exact inductionHypothesis _
  | case2 video within =>
      rw [expiries.eq_1 video, if_neg within, expireAll_of_lt (Nat.not_le.mp within)]
      rfl

theorem lastIndices_moments_add (video : Video) (early late : Nat) (kept : IndexLine) :
    lastIndices kept (video.moments (.step (early + late))) =
      lastIndices (lastIndices kept (video.moments (.step early)))
        ((video.step early).1.moments (.step late)) := by
  cases on : video.control.isOn with
  | false =>
      have off := Bool.eq_false_iff.mp on
      rw [step_of_off on, moments, moments, moments, if_neg off, if_neg off, if_neg off]
      rfl
  | true =>
      have compared := compared_step on early
      rw [moments, moments, moments, if_pos on, if_pos on, if_pos (isOn_step on early),
        compared.elapse_eq, elapse_add]
      change lastIndices kept ((video.elapse early).1.moveClock late).expiries =
        lastIndices (lastIndices kept (video.elapse early).1.expiries)
          ((video.step early).1.moveClock late).expiries
      rw [lastIndices_expiries_moveClock, step_of_on on]

/-! ## What time leaves alone -/

/-- Two states agree in the memory that pictures are made of. -/
structure SameMemory (first second : Video) : Prop where
  vram : second.vram = first.vram
  oam : second.oam = first.oam

theorem SameMemory.step (video : Video) (cycles : Nat) : SameMemory video (video.step cycles).1 :=
  ⟨congrArg Store.vram (stored_step video cycles), congrArg Store.oam (stored_step video cycles)⟩

end Video

end Dmg
