import Dmg.Video.Register

/-!
# The video unit from one change to the next

A span of time can end several modes.  Here it is taken apart: the comparison at
its beginning, and then one mode after another that runs out, each of which
changes the unit in one of six ways.
-/

namespace Dmg

namespace Video

/-! ## Comparing lines -/

/-- The status register with the outcome of the comparison. -/
def comparedStat (video : Video) : UInt8 :=
  if video.ly = video.lyc then video.stat ||| compareBit else video.stat &&& ~~~compareBit

def compareRequest (video : Video) : UInt8 :=
  if video.ly = video.lyc then video.requestIf compareSwitch else 0

theorem compareLine_eq (video : Video) :
    video.compareLine = ({ video with stat := video.comparedStat }, video.compareRequest) := by
  unfold compareLine comparedStat compareRequest
  split <;> rfl

theorem thenCompare_eq (changed : Video × UInt8) :
    thenCompare changed =
      ({ changed.1 with stat := changed.1.comparedStat },
        changed.2 ||| changed.1.compareRequest) := by
  rw [thenCompare, compareLine_eq]

/-! ## The end of a mode -/

/-- Modes end in six ways.  The views of video memory play no part in the cycle,
so whether they are brought up to date is left open. -/
theorem finishMode_cases (video : Video) :
    (video.mode = .oamScan ∧ video.finishMode = (video.setMode .drawing, 0)) ∨
    (video.mode = .drawing ∧ ∃ sheet map, video.finishMode =
      ({ video.drawLine.setMode .hblank with tileSheet := sheet, backgroundMap := map },
        video.requestIf hblankSwitch)) ∨
    (video.mode = .hblank ∧ video.ly + 1 = vblankLine ∧
      video.finishMode = thenCompare { video with ly := video.ly + 1 }.enterVblank) ∨
    (video.mode = .hblank ∧ video.ly + 1 ≠ vblankLine ∧
      video.finishMode = thenCompare { video with ly := video.ly + 1 }.enterOamScan) ∨
    (video.mode = .vblank ∧ video.ly < lastLine ∧
      video.finishMode = thenCompare ({ video with ly := video.ly + 1 }, 0)) ∨
    (video.mode = .vblank ∧ ¬ video.ly < lastLine ∧
      video.finishMode = thenCompare { video with ly := 0 }.enterOamScan) := by
  rw [finishMode]
  cases mode : video.mode with
  | oamScan => exact Or.inl ⟨rfl, rfl⟩
  | drawing =>
      refine Or.inr (Or.inl ⟨rfl, ?_⟩)
      by_cases last : (video.drawLine.setMode .hblank).ly + 1 = vblankLine
      · rw [finishDrawing, if_pos last]
        exact ⟨_, _, rfl⟩
      · rw [finishDrawing, if_neg last]
        exact ⟨_, _, rfl⟩
  | hblank =>
      by_cases last : video.ly + 1 = vblankLine
      · refine Or.inr (Or.inr (Or.inl ⟨rfl, last, ?_⟩))
        rw [finishHblank, if_pos last, mode]
      · refine Or.inr (Or.inr (Or.inr (Or.inl ⟨rfl, last, ?_⟩)))
        rw [finishHblank, if_neg last, mode]
  | vblank =>
      by_cases more : video.ly < lastLine
      · refine Or.inr (Or.inr (Or.inr (Or.inr (Or.inl ⟨rfl, more, ?_⟩))))
        rw [finishVblank, if_pos more, mode]
      · refine Or.inr (Or.inr (Or.inr (Or.inr (Or.inr ⟨rfl, more, ?_⟩))))
        rw [finishVblank, if_neg more, mode]

/-- Whichever way a mode ends, memory and most registers are left alone. -/
theorem exists_finishMode_eq (video : Video) :
    ∃ mode ly stat back front sheet map, video.finishMode.1 =
      { video with
        mode := mode
        ly := ly
        stat := stat
        back := back
        front := front
        tileSheet := sheet
        backgroundMap := map } := by
  rcases finishMode_cases video with
    ⟨-, after⟩ | ⟨-, sheet, map, after⟩ | ⟨-, -, after⟩ | ⟨-, -, after⟩ | ⟨-, -, after⟩ |
    ⟨-, -, after⟩
  · rw [after]
    exact ⟨_, _, _, _, _, _, _, rfl⟩
  · rw [after]
    exact ⟨_, _, _, _, _, _, _, rfl⟩
  · rw [after, thenCompare_eq]
    exact ⟨_, _, _, _, _, _, _, rfl⟩
  · rw [after, thenCompare_eq]
    exact ⟨_, _, _, _, _, _, _, rfl⟩
  · rw [after, thenCompare_eq]
    exact ⟨_, _, _, _, _, _, _, rfl⟩
  · rw [after, thenCompare_eq]
    exact ⟨_, _, _, _, _, _, _, rfl⟩

/-! ## The clock -/

def withClock (video : Video) (clock : Nat) : Video :=
  { video with clock := clock }

theorem thenCompare_withClock {changed other : Video × UInt8} {clock : Nat}
    (same : changed = (other.1.withClock clock, other.2)) :
    thenCompare changed = ((thenCompare other).1.withClock clock, (thenCompare other).2) := by
  rw [same, thenCompare_eq, thenCompare_eq]
  rfl

/-- No mode looks at the clock when it ends. -/
theorem finishMode_withClock (video : Video) (clock : Nat) :
    (video.withClock clock).finishMode =
      (video.finishMode.1.withClock clock, video.finishMode.2) := by
  have kept : (video.withClock clock).mode = video.mode := rfl
  rw [finishMode, finishMode, kept]
  cases video.mode with
  | oamScan => rfl
  | drawing =>
      change (if video.ly + 1 = vblankLine then _ else _, _) =
        ((if video.ly + 1 = vblankLine then _ else _ : Video).withClock clock, _)
      split <;> rfl
  | hblank =>
      change thenCompare (if video.ly + 1 = vblankLine then _ else _) =
        ((thenCompare (if video.ly + 1 = vblankLine then _ else _)).1.withClock clock,
          (thenCompare (if video.ly + 1 = vblankLine then _ else _)).2)
      split
      · exact thenCompare_withClock rfl
      · exact thenCompare_withClock rfl
  | vblank =>
      change (if video.ly < lastLine then _ else _) =
        ((if video.ly < lastLine then _ else _ : Video × UInt8).1.withClock clock,
          (if video.ly < lastLine then _ else _ : Video × UInt8).2)
      split
      · exact thenCompare_withClock rfl
      · exact thenCompare_withClock rfl

/-- The present mode runs out. -/
def expire (video : Video) : Video × UInt8 :=
  (video.withClock (video.clock - video.mode.duration)).finishMode

theorem expire_eq (video : Video) :
    video.expire =
      (video.finishMode.1.withClock (video.clock - video.mode.duration), video.finishMode.2) :=
  finishMode_withClock video _

/-- Modes run out until the clock falls within one. -/
def expireAll (video : Video) : Video × UInt8 :=
  if video.mode.duration <= video.clock then
    let rest := video.expire.1.expireAll
    (rest.1, video.expire.2 ||| rest.2)
  else (video, 0)
termination_by video.clock
decreasing_by
  have positive := video.mode.duration_pos
  rw [expire_eq]
  change video.clock - video.mode.duration < video.clock
  omega

theorem expireAll_of_le {video : Video} (due : video.mode.duration <= video.clock) :
    video.expireAll =
      (video.expire.1.expireAll.1, video.expire.2 ||| video.expire.1.expireAll.2) := by
  rw [expireAll, if_pos due]

theorem expireAll_of_lt {video : Video} (within : video.clock < video.mode.duration) :
    video.expireAll = (video, 0) := by
  rw [expireAll, if_neg (Nat.not_le.mpr within)]

theorem runClock_eq (video : Video) (clock : Nat) (requests : UInt8) :
    video.runClock clock requests =
      ((video.withClock clock).expireAll.1, requests ||| (video.withClock clock).expireAll.2) := by
  induction video, clock, requests using runClock.induct with
  | case1 video clock requests due finished inductionHypothesis =>
      have one : (video.withClock clock).expire =
          (video.finishMode.1.withClock (clock - video.mode.duration), video.finishMode.2) :=
        finishMode_withClock video _
      have rest : (video.withClock clock).expireAll = _ := expireAll_of_le due
      rw [runClock, if_pos due, inductionHypothesis, rest, one, UInt8.or_assoc]
  | case2 video clock requests within =>
      have rest : (video.withClock clock).expireAll = _ :=
        expireAll_of_lt (Nat.not_le.mp within)
      rw [runClock, if_neg within, rest, UInt8.or_zero]
      rfl

/-- The lines are compared and the clock moves on; no mode has run out yet. -/
def elapse (video : Video) (cycles : Nat) : Video × UInt8 :=
  (video.compareLine.1.withClock (video.clock + cycles), video.compareLine.2)

theorem step_of_on {video : Video} (on : video.control.isOn = true) (cycles : Nat) :
    video.step cycles =
      ((video.elapse cycles).1.expireAll.1,
        (video.elapse cycles).2 ||| (video.elapse cycles).1.expireAll.2) := by
  rw [step, if_pos on]
  exact runClock_eq _ _ _

theorem step_of_off {video : Video} (off : video.control.isOn = false) (cycles : Nat) :
    video.step cycles = (video, 0) := by
  rw [step, off]
  rfl

/-! ## What neither time nor a register changes -/

/-- What the unit stores beside its registers and its pictures. -/
structure Store where
  vram : VideoMemory
  oam : SpriteMemory
  tileRows : TileRows
  shades : Shades

/-- What a unit stores. -/
def stored (video : Video) : Store :=
  ⟨video.vram, video.oam, video.tileRows, video.shades⟩

theorem stored_finishMode (video : Video) : video.finishMode.1.stored = video.stored := by
  rcases exists_finishMode_eq video with ⟨mode, ly, stat, back, front, sheet, map, after⟩
  rw [after]
  rfl

theorem stored_expireAll (video : Video) : video.expireAll.1.stored = video.stored := by
  induction video using expireAll.induct with
  | case1 video due inductionHypothesis =>
      rw [expireAll_of_le due, inductionHypothesis, expire_eq]
      exact stored_finishMode video
  | case2 video within => rw [expireAll_of_lt (Nat.not_le.mp within)]

@[simp] theorem stored_step (video : Video) (cycles : Nat) :
    (video.step cycles).1.stored = video.stored := by
  cases on : video.control.isOn with
  | false => rw [step_of_off on]
  | true =>
      rw [step_of_on on, stored_expireAll, elapse, compareLine_eq]
      rfl

@[simp] theorem stored_writeRegister (video : Video) (register : VideoRegister) (byte : UInt8) :
    (video.writeRegister register byte).1.stored = video.stored := by
  cases register with
  | lcdc =>
      change (video.writeControl byte).stored = video.stored
      rw [writeControl]
      split <;> rfl
  | stat | lyc =>
      rw [writeRegister, compareLine_eq]
      rfl
  | _ => rfl

end Video

end Dmg
