import Dmg.Proofs.Requests
import Dmg.Proofs.Video.Place

/-!
# Video timing as one counter

While the display is on, the unit is a counter of clock cycles that starts again
after 70224 of them.  Everything that asks for an interrupt has its places on
this counter, and a span of time asks for whatever lies within it, however many
lines and pictures it covers.  The comparison of lines at the beginning of a
span is the one request that has no place.
-/

namespace Dmg

namespace Video

/-! ## Events on the counter -/

/-- Whether an event occurs while the counter moves on.  The event is given by
its places in a picture; the span begins behind its first place. -/
def Passes (event : Nat -> Prop) (start length : Nat) : Prop :=
  ∃ moment, start < moment ∧ moment <= start + length ∧ event (moment % 70224)

theorem passes_add {event : Nat -> Prop} {start early late : Nat} :
    Passes event start (early + late) ↔
      Passes event start early ∨ Passes event (start + early) late := by
  constructor
  · rintro ⟨moment, after, within, occurs⟩
    rcases Nat.lt_or_ge (start + early) moment with later | earlier
    · exact Or.inr ⟨moment, later, by omega, occurs⟩
    · exact Or.inl ⟨moment, after, earlier, occurs⟩
  · rintro (⟨moment, after, within, occurs⟩ | ⟨moment, after, within, occurs⟩)
    · exact ⟨moment, after, by omega, occurs⟩
    · exact ⟨moment, by omega, by omega, occurs⟩

/-- Whole pictures before the span do not count. -/
theorem passes_mod {event : Nat -> Prop} {start length : Nat} :
    Passes event (start % 70224) length ↔ Passes event start length := by
  have split := Nat.div_add_mod start 70224
  constructor
  · rintro ⟨moment, after, within, occurs⟩
    refine ⟨70224 * (start / 70224) + moment, by omega, by omega, ?_⟩
    rw [Nat.mul_add_mod]
    exact occurs
  · rintro ⟨moment, after, within, occurs⟩
    refine ⟨moment - 70224 * (start / 70224), by omega, by omega, ?_⟩
    have same : (moment - 70224 * (start / 70224)) % 70224 = moment % 70224 := by
      omega
    rw [same]
    exact occurs

theorem passes_place {place start length : Nat} (inside : place < 70224) :
    Passes (fun moment => moment = place) start length ↔
      ∃ pictures, start < place + 70224 * pictures ∧
        place + 70224 * pictures <= start + length := by
  constructor
  · rintro ⟨moment, after, within, occurs⟩
    have split := Nat.div_add_mod moment 70224
    exact ⟨moment / 70224, by omega, by omega⟩
  · rintro ⟨pictures, after, within⟩
    refine ⟨place + 70224 * pictures, after, within, ?_⟩
    rw [Nat.add_mul_mod_self_left]
    exact Nat.mod_eq_of_lt inside

/-- The places at which something can ask for an interrupt: the beginning of a
line, and the end of drawing. -/
def Boundary (place : Nat) : Prop :=
  (∃ line, line < 154 ∧ place = 456 * line) ∨ ∃ line, line < 144 ∧ place = 456 * line + 252

theorem OnLine.not_boundary {video : Video} (online : video.OnLine) {moment : Nat}
    (after : video.modeStart < moment) (before : moment < video.modeStart + video.mode.duration) :
    ¬ Boundary (moment % 70224) := by
  have bound := online.ly_le
  have ends := video.modeEnd_le
  have starts : 456 * video.ly.toNat <= video.modeStart := Nat.le_add_right _ _
  rw [Nat.mod_eq_of_lt (by omega)]
  rintro (⟨line, small, same⟩ | ⟨line, small, same⟩)
  · omega
  · rw [modeStart] at after before
    cases mode : video.mode with
    | vblank =>
        have between := online.vblank_iff.mp mode
        omega
    | oamScan =>
        simp only [mode, Mode.offset, Mode.duration] at after before
        omega
    | drawing =>
        simp only [mode, Mode.offset, Mode.duration] at after before
        omega
    | hblank =>
        simp only [mode, Mode.offset, Mode.duration] at after before
        omega

/-- Within a mode nothing occurs. -/
theorem OnLine.not_passes {video : Video} (online : video.OnLine) {event : Nat -> Prop}
    (boundary : ∀ place, event place -> Boundary place) {length : Nat}
    (within : length < video.mode.duration) : ¬ Passes event video.modeStart length := by
  rintro ⟨moment, after, before, occurs⟩
  exact online.not_boundary after (by omega) (boundary _ occurs)

/-- What occurs while a mode lasts occurs when it ends. -/
theorem OnLine.passes_duration {video : Video} (online : video.OnLine) {event : Nat -> Prop}
    (boundary : ∀ place, event place -> Boundary place) :
    Passes event video.modeStart video.mode.duration ↔
      event ((video.modeStart + video.mode.duration) % 70224) := by
  constructor
  · rintro ⟨moment, after, within, occurs⟩
    rcases Nat.lt_or_ge moment (video.modeStart + video.mode.duration) with before | ends
    · exact False.elim (online.not_boundary after before (boundary _ occurs))
    · rw [Nat.le_antisymm within ends] at occurs
      exact occurs
  · intro occurs
    have positive := video.mode.duration_pos
    exact ⟨video.modeStart + video.mode.duration, by omega, Nat.le_refl _, occurs⟩

/-! ## Requests -/

/-- Whether a switch lets its event ask. -/
def Enables (video : Video) (switch : UInt8) : Prop :=
  video.stat &&& switch ≠ 0

/-- The places in a picture at which the unit asks for the status interrupt. -/
def AsksAt (video : Video) (place : Nat) : Prop :=
  (video.Enables hblankSwitch ∧ ∃ line, line < 144 ∧ place = 456 * line + 252) ∨
  (video.Enables vblankSwitch ∧ place = 65664) ∨
  (video.Enables oamSwitch ∧ ∃ line, line < 144 ∧ place = 456 * line) ∨
  (video.Enables compareSwitch ∧ ∃ line, line < 154 ∧ place = 456 * line ∧ line = video.lyc.toNat)

theorem AsksAt.boundary {video : Video} {place : Nat} (asks : video.AsksAt place) :
    Boundary place := by
  rcases asks with ⟨-, asks⟩ | ⟨-, asks⟩ | ⟨-, line, small, asks⟩ | ⟨-, line, small, asks, -⟩
  · exact Or.inr asks
  · exact Or.inl ⟨144, by decide, asks⟩
  · exact Or.inl ⟨line, by omega, asks⟩
  · exact Or.inl ⟨line, small, asks⟩

theorem SameSettings.enables {first second : Video} (same : SameSettings first second)
    {switch : UInt8} (covered : switchMask &&& switch = switch) :
    second.Enables switch ↔ first.Enables switch := by
  rw [Enables, Enables, ← covered, ← UInt8.and_assoc, ← UInt8.and_assoc, same.switches]

theorem SameSettings.asksAt {first second : Video} (same : SameSettings first second)
    {place : Nat} : second.AsksAt place ↔ first.AsksAt place := by
  rw [AsksAt, AsksAt, same.enables rfl, same.enables rfl, same.enables rfl, same.enables rfl,
    same.lyc]

theorem asksAt_lineStart {video : Video} {line : Nat} (drawn : line < 144) :
    video.AsksAt (456 * line) ↔
      video.Enables oamSwitch ∨ video.Enables compareSwitch ∧ line = video.lyc.toNat := by
  constructor
  · rintro (⟨-, other, less, same⟩ | ⟨-, same⟩ | ⟨enabled, -⟩ | ⟨enabled, other, -, same, agree⟩)
    · omega
    · omega
    · exact Or.inl enabled
    · exact Or.inr ⟨enabled, by omega⟩
  · rintro (enabled | ⟨enabled, agree⟩)
    · exact Or.inr (Or.inr (Or.inl ⟨enabled, line, drawn, rfl⟩))
    · exact Or.inr (Or.inr (Or.inr ⟨enabled, line, by omega, rfl, agree⟩))

theorem asksAt_vblankStart {video : Video} :
    video.AsksAt 65664 ↔
      video.Enables vblankSwitch ∨ video.Enables compareSwitch ∧ 144 = video.lyc.toNat := by
  constructor
  · rintro (⟨-, other, less, same⟩ | ⟨enabled, -⟩ | ⟨-, other, less, same⟩ |
      ⟨enabled, other, -, same, agree⟩)
    · omega
    · exact Or.inl enabled
    · omega
    · exact Or.inr ⟨enabled, by omega⟩
  · rintro (enabled | ⟨enabled, agree⟩)
    · exact Or.inr (Or.inl ⟨enabled, rfl⟩)
    · exact Or.inr (Or.inr (Or.inr ⟨enabled, 144, by decide, rfl, agree⟩))

theorem asksAt_between {video : Video} {line : Nat} (first : 144 < line) (last : line < 154) :
    video.AsksAt (456 * line) ↔
      video.Enables compareSwitch ∧ line = video.lyc.toNat := by
  constructor
  · rintro (⟨-, other, less, same⟩ | ⟨-, same⟩ | ⟨-, other, less, same⟩ |
      ⟨enabled, other, -, same, agree⟩)
    · omega
    · omega
    · omega
    · exact ⟨enabled, by omega⟩
  · rintro ⟨enabled, agree⟩
    exact Or.inr (Or.inr (Or.inr ⟨enabled, line, last, rfl, agree⟩))

theorem asksAt_drawn {video : Video} {line : Nat} (drawn : line < 144) :
    video.AsksAt (456 * line + 252) ↔ video.Enables hblankSwitch := by
  constructor
  · rintro (⟨enabled, -⟩ | ⟨-, same⟩ | ⟨-, other, less, same⟩ | ⟨-, other, less, same, -⟩)
    · exact enabled
    · omega
    · omega
    · omega
  · intro enabled
    exact Or.inl ⟨enabled, line, drawn, rfl⟩

theorem not_asksAt_drawing {video : Video} {line : Nat} : ¬ video.AsksAt (456 * line + 80) := by
  rintro (⟨-, other, less, same⟩ | ⟨-, same⟩ | ⟨-, other, less, same⟩ | ⟨-, other, less, same, -⟩)
  all_goals omega

theorem raisedIn_requestIf {source : Interrupt} {video : Video} {switch : UInt8} :
    source.RaisedIn (video.requestIf switch) ↔ source = .lcdStat ∧ video.Enables switch := by
  rw [requestIf, Enables]
  split
  · next none =>
      exact iff_of_false (Interrupt.not_raisedIn_zero _) (fun both => both.2 none)
  · next some => rw [Interrupt.raisedIn_mask, and_iff_left some]

theorem raisedIn_compareRequest {source : Interrupt} {first second : Video}
    (same : SameSettings first second) :
    source.RaisedIn second.compareRequest ↔
      source = .lcdStat ∧ first.Enables compareSwitch ∧ second.ly.toNat = first.lyc.toNat := by
  rw [compareRequest, ← same.lyc, UInt8.toNat_inj]
  split
  · next agree => rw [raisedIn_requestIf, same.enables rfl, and_iff_left agree]
  · next differ =>
      exact iff_of_false (Interrupt.not_raisedIn_zero _) (fun both => differ both.2.2)

theorem raisedIn_thenCompare {source : Interrupt} {video : Video} {changed : Video × UInt8}
    (same : SameSettings video changed.1) :
    source.RaisedIn (thenCompare changed).2 ↔ source.RaisedIn changed.2 ∨
      source = .lcdStat ∧ video.Enables compareSwitch ∧ changed.1.ly.toNat = video.lyc.toNat := by
  rw [thenCompare_eq, Interrupt.raisedIn_or, raisedIn_compareRequest same]

/-- What the end of a mode asks of the status interrupt depends on the place at
which the next mode begins. -/
theorem OnLine.lcdStat_finishMode {video : Video} (online : video.OnLine) :
    Interrupt.lcdStat.RaisedIn video.finishMode.2 ↔
      video.AsksAt ((video.modeStart + video.mode.duration) % 70224) := by
  have next := toNat_ly_add_one online
  have atVblank := next_eq_vblankLine_iff online
  rw [← online.finishMode.2]
  rcases finishMode_cases video with
    ⟨mode, after⟩ | ⟨mode, sheet, map, after⟩ | ⟨mode, last, after⟩ | ⟨mode, more, after⟩ |
    ⟨mode, more, after⟩ | ⟨mode, last, after⟩
  · rw [after]
    exact iff_of_false (Interrupt.not_raisedIn_zero _) not_asksAt_drawing
  · have drawn := online.drawn mode (by decide)
    have place : video.finishMode.1.modeStart = 456 * video.ly.toNat + 252 := by
      rw [after]
      rfl
    rw [place, after, asksAt_drawn drawn, raisedIn_requestIf]
    exact and_iff_right rfl
  · have same : SameSettings video { video with ly := video.ly + 1 }.enterVblank.1 :=
      ⟨setMode_switches video .vblank, rfl, rfl⟩
    have line : { video with ly := video.ly + 1 }.enterVblank.1.ly.toNat = 144 :=
      next.trans (atVblank.mp last)
    have place : video.finishMode.1.modeStart = 65664 := by
      rw [after, thenCompare_eq, modeStart]
      exact congrArg (fun number => 456 * number + 0) line
    have entered : Interrupt.lcdStat.RaisedIn { video with ly := video.ly + 1 }.enterVblank.2 ↔
        video.Enables vblankSwitch := by
      change Interrupt.lcdStat.RaisedIn (Interrupt.vblank.mask ||| video.requestIf vblankSwitch) ↔ _
      rw [Interrupt.raisedIn_or, raisedIn_requestIf, and_iff_right rfl]
      exact or_iff_right (by decide)
    rw [place, after, asksAt_vblankStart, raisedIn_thenCompare same, entered, line,
      and_iff_right rfl]
  · have drawn := online.drawn mode (by decide)
    have goesOn : video.ly.toNat + 1 ≠ 144 := fun ends => more (atVblank.mpr ends)
    have same : SameSettings video { video with ly := video.ly + 1 }.enterOamScan.1 :=
      ⟨setMode_switches video .oamScan, rfl, rfl⟩
    have line : { video with ly := video.ly + 1 }.enterOamScan.1.ly.toNat = video.ly.toNat + 1 :=
      next
    have place : video.finishMode.1.modeStart = 456 * (video.ly.toNat + 1) := by
      rw [after, thenCompare_eq, modeStart]
      exact congrArg (fun number => 456 * number + 0) line
    have entered : Interrupt.lcdStat.RaisedIn { video with ly := video.ly + 1 }.enterOamScan.2 ↔
        video.Enables oamSwitch :=
      raisedIn_requestIf.trans (and_iff_right rfl)
    rw [place, after, asksAt_lineStart (by omega), raisedIn_thenCompare same, entered, line,
      and_iff_right rfl]
  · have between := online.vblank_iff.mp mode
    have goesOn : video.ly.toNat < 153 := UInt8.lt_iff_toNat_lt.mp more
    have same : SameSettings video ({ video with ly := video.ly + 1 }, (0 : UInt8)).1 :=
      ⟨rfl, rfl, rfl⟩
    have line : ({ video with ly := video.ly + 1 }, (0 : UInt8)).1.ly.toNat = video.ly.toNat + 1 :=
      next
    have place : video.finishMode.1.modeStart = 456 * (video.ly.toNat + 1) := by
      rw [after, thenCompare_eq, modeStart, ← next]
      change 456 * (video.ly + 1).toNat + video.mode.offset = 456 * (video.ly + 1).toNat
      rw [mode]
      rfl
    rw [place, after, asksAt_between (by omega) (by omega), raisedIn_thenCompare same, line,
      and_iff_right rfl]
    exact or_iff_right (Interrupt.not_raisedIn_zero _)
  · have same : SameSettings video { video with ly := 0 }.enterOamScan.1 :=
      ⟨setMode_switches video .oamScan, rfl, rfl⟩
    have line : { video with ly := 0 }.enterOamScan.1.ly.toNat = 0 := rfl
    have place : video.finishMode.1.modeStart = 456 * 0 := by
      rw [after, thenCompare_eq]
      rfl
    have entered : Interrupt.lcdStat.RaisedIn { video with ly := 0 }.enterOamScan.2 ↔
        video.Enables oamSwitch :=
      raisedIn_requestIf.trans (and_iff_right rfl)
    rw [place, after, asksAt_lineStart (by decide), raisedIn_thenCompare same, entered, line,
      and_iff_right rfl]

theorem vblank_raisedIn_thenCompare (changed : Video × UInt8) :
    Interrupt.vblank.RaisedIn (thenCompare changed).2 ↔ Interrupt.vblank.RaisedIn changed.2 := by
  rw [raisedIn_thenCompare (SameSettings.refl _)]
  exact or_iff_left (fun both => absurd both.1 (by decide))

/-- A picture is complete with the pause behind its last line. -/
theorem vblank_raisedIn_finishMode (video : Video) :
    Interrupt.vblank.RaisedIn video.finishMode.2 ↔
      video.mode = .hblank ∧ video.ly + 1 = vblankLine := by
  have unasked {switch : UInt8} : ¬ Interrupt.vblank.RaisedIn (video.requestIf switch) := by
    rw [raisedIn_requestIf]
    intro both
    exact absurd both.1 (by decide)
  have elsewhere {other : Mode} (mode : video.mode = other) (different : other ≠ .hblank) :
      ¬ (video.mode = .hblank ∧ video.ly + 1 = vblankLine) := by
    rintro ⟨paused, -⟩
    exact different (mode.symm.trans paused)
  rcases finishMode_cases video with
    ⟨mode, after⟩ | ⟨mode, sheet, map, after⟩ | ⟨mode, last, after⟩ | ⟨mode, more, after⟩ |
    ⟨mode, more, after⟩ | ⟨mode, last, after⟩
  · rw [after]
    exact iff_of_false (Interrupt.not_raisedIn_zero _) (elsewhere mode (by decide))
  · rw [after]
    exact iff_of_false unasked (elsewhere mode (by decide))
  · rw [after, vblank_raisedIn_thenCompare]
    refine iff_of_true ?_ ⟨mode, last⟩
    exact Interrupt.raisedIn_or.mpr (Or.inl (by decide))
  · rw [after, vblank_raisedIn_thenCompare]
    exact iff_of_false unasked (fun both => more both.2)
  · rw [after, vblank_raisedIn_thenCompare]
    exact iff_of_false (Interrupt.not_raisedIn_zero _) (elsewhere mode (by decide))
  · rw [after, vblank_raisedIn_thenCompare]
    exact iff_of_false unasked (elsewhere mode (by decide))

theorem OnLine.vblank_finishMode {video : Video} (online : video.OnLine) :
    Interrupt.vblank.RaisedIn video.finishMode.2 ↔
      (video.modeStart + video.mode.duration) % 70224 = 65664 := by
  have bound := online.ly_le
  rw [vblank_raisedIn_finishMode, next_eq_vblankLine_iff online, modeStart]
  cases mode : video.mode with
  | vblank =>
      have between := online.vblank_iff.mp mode
      refine iff_of_false (fun both => absurd both.1 (by decide)) ?_
      rw [Mode.offset, Mode.duration]
      omega
  | oamScan =>
      refine iff_of_false (fun both => absurd both.1 (by decide)) ?_
      rw [Mode.offset, Mode.duration]
      omega
  | drawing =>
      refine iff_of_false (fun both => absurd both.1 (by decide)) ?_
      rw [Mode.offset, Mode.duration]
      omega
  | hblank =>
      rw [and_iff_right rfl, Mode.offset, Mode.duration]
      omega

/-! ## A whole span of time -/

/-- A request that depends on the place alone when one mode ends does so over any
number of modes. -/
theorem OnLine.raisedIn_expireAll {source : Interrupt} {event : Nat -> Prop} {video : Video}
    (online : video.OnLine) (boundary : ∀ place, event place -> Boundary place)
    (ends : ∀ later : Video, later.OnLine -> SameSettings video later ->
      (source.RaisedIn later.finishMode.2 ↔
        event ((later.modeStart + later.mode.duration) % 70224))) :
    source.RaisedIn video.expireAll.2 ↔ Passes event video.modeStart video.clock := by
  induction video using expireAll.induct with
  | case1 video due inductionHypothesis =>
      rcases online.expire with ⟨stays, start⟩
      have same := SameSettings.expire video
      have clock : video.clock = video.mode.duration + video.expire.1.clock := by
        rw [expire_eq]
        exact (Nat.add_sub_cancel' due).symm
      have asked : source.RaisedIn video.expire.2 ↔
          event ((video.modeStart + video.mode.duration) % 70224) := by
        rw [expire_eq]
        exact ends video online (SameSettings.refl video)
      have rest := inductionHypothesis stays
        (fun later laterOnline laterSame => ends later laterOnline (same.trans laterSame))
      rw [expireAll_of_le due, Interrupt.raisedIn_or, rest, asked, clock, passes_add,
        online.passes_duration boundary, start, passes_mod]
  | case2 video within =>
      rw [expireAll_of_lt (Nat.not_le.mp within)]
      exact iff_of_false (Interrupt.not_raisedIn_zero _)
        (online.not_passes boundary (Nat.not_le.mp within))

/-- What a span of time asks for, apart from the comparison at its beginning. -/
theorem Settled.raisedIn_step {source : Interrupt} {event : Nat -> Prop} {video : Video}
    (settled : video.Settled) (on : video.control.isOn = true)
    (boundary : ∀ place, event place -> Boundary place)
    (ends : ∀ later : Video, later.OnLine -> SameSettings video later ->
      (source.RaisedIn later.finishMode.2 ↔
        event ((later.modeStart + later.mode.duration) % 70224)))
    (cycles : Nat) :
    source.RaisedIn (video.step cycles).2 ↔
      (source = .lcdStat ∧ video.Enables compareSwitch ∧ video.ly = video.lyc) ∨
        Passes event video.position cycles := by
  rcases settled.online.elapse cycles with ⟨stays, start⟩
  have same := SameSettings.elapse video cycles
  have rest : source.RaisedIn (video.elapse cycles).1.expireAll.2 ↔ _ :=
    stays.raisedIn_expireAll boundary
      (fun later online laterSame => ends later online (same.trans laterSame))
  have clock : (video.elapse cycles).1.clock = video.clock + cycles := rfl
  have first : source.RaisedIn (video.elapse cycles).2 ↔
      source = .lcdStat ∧ video.Enables compareSwitch ∧ video.ly = video.lyc := by
    rw [elapse, compareLine_eq, raisedIn_compareRequest (SameSettings.refl video), UInt8.toNat_inj]
  rw [step_of_on on, Interrupt.raisedIn_or, first, rest, start, clock, passes_add,
    or_iff_right (settled.online.not_passes boundary settled.clock_lt)]
  rfl

/-- In every state that can arise, the unit is a counter of 70224 steps while the
display is on and stands at its beginning while the display is off. -/
theorem timing_of_reached {video : Video} (reached : video.Reached) :
    (video.ly.toNat <= 153 ∧ (video.mode = .vblank ↔ 144 <= video.ly.toNat) ∧
      video.clock < video.mode.duration) ∧
    (video.control.isOn = true -> ∀ cycles,
      (video.step cycles).1.position = (video.position + cycles) % 70224 ∧
      (Interrupt.vblank.RaisedIn (video.step cycles).2 ↔
        ∃ pictures, video.position < 65664 + 70224 * pictures ∧
          65664 + 70224 * pictures <= video.position + cycles) ∧
      (Interrupt.lcdStat.RaisedIn (video.step cycles).2 ↔
        (video.Enables compareSwitch ∧ video.ly = video.lyc) ∨
          Passes video.AsksAt video.position cycles)) ∧
    (video.control.isOn = false -> ∀ cycles, video.step cycles = (video, 0)) ∧
    ∀ byte, (LcdControl.mk byte).isOn = false ->
      (video.apply (.writeRegister .lcdc byte)).control.isOn = false ∧
      (video.apply (.writeRegister .lcdc byte)).position = 0 ∧
      ∀ actions, ((video.apply (.writeRegister .lcdc byte)).actAll actions).control.isOn = false ->
        ((video.apply (.writeRegister .lcdc byte)).actAll actions).position = 0 := by
  have settled := reached.settled
  refine ⟨⟨settled.online.ly_le, settled.online.vblank_iff, settled.clock_lt⟩, fun on cycles => ?_,
    step_of_off, fun byte off => ?_⟩
  · refine ⟨(settled.online.step on cycles).2, ?_, ?_⟩
    · have asked := settled.raisedIn_step on
        (fun place same => Or.inl ⟨144, by decide, same⟩)
        (fun later online _ => online.vblank_finishMode) cycles
      rw [asked, passes_place (by decide)]
      exact or_iff_right (fun both => absurd both.1 (by decide))
    · have asked := settled.raisedIn_step on
        (fun place asks => AsksAt.boundary asks)
        (fun later online same => online.lcdStat_finishMode.trans same.asksAt) cycles
      rw [asked, and_iff_right rfl]
  · have dark : (video.apply (.writeRegister .lcdc byte)).control.isOn = false :=
      isOn_writeControl off
    have cleared := settled.apply (.writeRegister .lcdc byte)
    exact ⟨dark, cleared.parked dark, fun actions still => (cleared.actAll actions).parked still⟩

/-- The first picture is complete 65664 clock cycles after the start, and not
before. -/
theorem initial_completes_picture :
    (initial .green).Reached ∧ ((initial .green).step 65664).1.position = 65664 ∧
      Interrupt.vblank.RaisedIn ((initial .green).step 65664).2 ∧
      ¬ Interrupt.vblank.RaisedIn ((initial .green).step 65663).2 := by
  have reached : (initial .green).Reached := ⟨.green, [], rfl⟩
  have start : (initial .green).position = 0 := rfl
  rcases timing_of_reached reached with ⟨-, counts, -⟩
  rcases counts rfl 65664 with ⟨place, asked, -⟩
  rcases counts rfl 65663 with ⟨-, early, -⟩
  rw [start] at place asked early
  refine ⟨reached, place, asked.mpr ⟨0, by decide, by decide⟩, fun raised => ?_⟩
  rcases early.mp raised with ⟨pictures, -, within⟩
  omega

end Video

end Dmg
