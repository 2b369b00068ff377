import Dmg.Proofs.Video.Cycle

/-!
# Where the video unit is

What other parts of the machine do to the unit is a list of actions.  In every
state that actions lead to, the line, the mode and the clock fit together, and
they make up one place in a picture.  Time moves this place on; whatever else is
done to the unit leaves it alone or puts it back to the top.
-/

namespace Dmg

namespace Mode

/-- How far into its line a mode begins, in clock cycles. -/
def offset : Mode -> Nat
  | hblank => 252
  | vblank => 0
  | oamScan => 0
  | drawing => 80

end Mode

namespace Video

/-! ## What others do to the unit -/

/-- What the rest of the machine does to the unit, apart from letting time
pass. -/
inductive Command where
  | reset
  | writeVram (offset : VideoOffset) (byte : UInt8)
  | writeOam (offset : SpriteOffset) (byte : UInt8)
  | writeRegister (register : VideoRegister) (byte : UInt8)

def apply (video : Video) : Command -> Video
  | .reset => video.reset
  | .writeVram offset byte => video.writeVram offset byte
  | .writeOam offset byte => video.writeOam offset byte
  | .writeRegister register byte => (video.writeRegister register byte).1

/-- Whether a command switches the display off. -/
def darkens (video : Video) : Command -> Bool
  | .writeRegister .lcdc byte => video.control.isOn && !(LcdControl.mk byte).isOn
  | _ => false

/-- Whether a command puts the unit back to the top of a white screen. -/
def clears (video : Video) : Command -> Bool
  | .reset => true
  | command => video.darkens command

/-- Everything the rest of the machine does to the unit. -/
inductive Action where
  | command (command : Command)
  | step (cycles : Nat)

def act (video : Video) : Action -> Video
  | .command command => video.apply command
  | .step cycles => (video.step cycles).1

/-- The unit after one action after the other. -/
def actAll (video : Video) (actions : List Action) : Video :=
  actions.foldl act video

/-- The states that a unit can be in. -/
def Reached (video : Video) : Prop :=
  ∃ shades actions, (initial shades).actAll actions = video

/-- Two states agree in how far their pictures are and what these show. -/
structure SamePicture (first second : Video) : Prop where
  mode : second.mode = first.mode
  ly : second.ly = first.ly
  back : second.back = first.back
  front : second.front = first.front

theorem writeControl_of_darkens {video : Video} {byte : UInt8}
    (dark : video.darkens (.writeRegister .lcdc byte) = true) :
    video.writeControl byte = { video with control := ⟨byte⟩ }.park := by
  rw [writeControl]
  exact if_pos dark

theorem writeControl_of_not_darkens {video : Video} {byte : UInt8}
    (bright : video.darkens (.writeRegister .lcdc byte) = false) :
    video.writeControl byte = { video with control := ⟨byte⟩ } := by
  rw [writeControl]
  exact if_neg (Bool.eq_false_iff.mp bright)

theorem isOn_writeControl {video : Video} {byte : UInt8} (off : (LcdControl.mk byte).isOn = false) :
    (video.writeControl byte).control.isOn = false := by
  rw [writeControl]
  split <;> exact off

/-- A command starts the unit anew, or switches the display off, or leaves the
unit where it is. -/
theorem apply_cases (video : Video) (command : Command) :
    (video.clears command = true ∧ video.apply command = initial video.shades) ∨
    (video.clears command = true ∧ ∃ control : LcdControl,
      control.isOn = false ∧ video.apply command = { video with control := control }.park) ∨
    (video.clears command = false ∧ SamePicture video (video.apply command) ∧
      (video.apply command).clock = video.clock ∧
      (video.control.isOn = true -> (video.apply command).control.isOn = true)) := by
  cases command with
  | reset => exact Or.inl ⟨rfl, video.reset_eq⟩
  | writeVram offset byte => exact Or.inr (Or.inr ⟨rfl, ⟨rfl, rfl, rfl, rfl⟩, rfl, id⟩)
  | writeOam offset byte => exact Or.inr (Or.inr ⟨rfl, ⟨rfl, rfl, rfl, rfl⟩, rfl, id⟩)
  | writeRegister register byte =>
      cases register with
      | lcdc =>
          cases dark : video.darkens (.writeRegister .lcdc byte) with
          | true =>
              rcases Bool.and_eq_true_iff.mp dark with ⟨-, off⟩
              exact Or.inr (Or.inl ⟨dark, ⟨byte⟩, (Bool.not_eq_true' _).mp off,
                writeControl_of_darkens dark⟩)
          | false =>
              have stored : video.apply (.writeRegister .lcdc byte) =
                  { video with control := ⟨byte⟩ } :=
                writeControl_of_not_darkens dark
              rw [stored]
              refine Or.inr (Or.inr ⟨dark, ⟨rfl, rfl, rfl, rfl⟩, rfl, fun on => ?_⟩)
              rw [darkens, on, Bool.true_and] at dark
              exact (Bool.not_eq_false' _).mp dark
      | stat =>
          have compared : video.apply (.writeRegister .stat byte) = _ :=
            congrArg Prod.fst (compareLine_eq _)
          rw [compared]
          exact Or.inr (Or.inr ⟨rfl, ⟨rfl, rfl, rfl, rfl⟩, rfl, id⟩)
      | lyc =>
          have compared : video.apply (.writeRegister .lyc byte) = _ :=
            congrArg Prod.fst (compareLine_eq _)
          rw [compared]
          exact Or.inr (Or.inr ⟨rfl, ⟨rfl, rfl, rfl, rfl⟩, rfl, id⟩)
      | _ => exact Or.inr (Or.inr ⟨rfl, ⟨rfl, rfl, rfl, rfl⟩, rfl, id⟩)

/-! ## Where the unit is -/

/-- The line and the mode fit together: the first 144 lines go through three modes each,
and the others belong to the pause between two pictures. -/
structure OnLine (video : Video) : Prop where
  ly_le : video.ly.toNat <= 153
  vblank_iff : video.mode = .vblank ↔ 144 <= video.ly.toNat

/-- The place of the beginning of the mode in a picture, in clock cycles. -/
def modeStart (video : Video) : Nat :=
  456 * video.ly.toNat + video.mode.offset

/-- The place of the unit in a picture, in clock cycles. -/
def position (video : Video) : Nat :=
  video.modeStart + video.clock

theorem toNat_ly_add_one {video : Video} (online : video.OnLine) :
    (video.ly + 1).toNat = video.ly.toNat + 1 := by
  have bound := online.ly_le
  rw [UInt8.toNat_add]
  change (video.ly.toNat + 1) % 256 = video.ly.toNat + 1
  omega

theorem next_eq_vblankLine_iff {video : Video} (online : video.OnLine) :
    video.ly + 1 = vblankLine ↔ video.ly.toNat + 1 = 144 := by
  rw [← UInt8.toNat_inj, toNat_ly_add_one online]
  rfl

theorem OnLine.of_drawn {video : Video} (mode : video.mode ≠ .vblank)
    (drawn : video.ly.toNat < 144) : video.OnLine := by
  refine ⟨by omega, fun between => absurd between mode, fun reached => ?_⟩
  omega

theorem OnLine.of_vblank {video : Video} (mode : video.mode = .vblank)
    (first : 144 <= video.ly.toNat) (last : video.ly.toNat <= 153) : video.OnLine :=
  ⟨last, fun _ => first, fun _ => mode⟩

theorem OnLine.drawn {video : Video} {mode : Mode} (online : video.OnLine)
    (present : video.mode = mode) (other : mode ≠ .vblank) : video.ly.toNat < 144 := by
  apply Nat.not_le.mp
  intro reached
  exact other (present.symm.trans (online.vblank_iff.mpr reached))

/-- When a mode ends the line and the mode still fit together, and the next mode
begins where this one ends. -/
theorem OnLine.finishMode {video : Video} (online : video.OnLine) :
    video.finishMode.1.OnLine ∧
      video.finishMode.1.modeStart = (video.modeStart + video.mode.duration) % 70224 := by
  have next := toNat_ly_add_one online
  have atVblank := next_eq_vblankLine_iff online
  rcases finishMode_cases video with
    ⟨mode, after⟩ | ⟨mode, sheet, map, after⟩ | ⟨mode, last, after⟩ | ⟨mode, more, after⟩ |
    ⟨mode, more, after⟩ | ⟨mode, last, after⟩
  · have drawn := online.drawn mode (by decide)
    rw [after, modeStart, modeStart, mode]
    refine ⟨of_drawn (show Mode.drawing ≠ .vblank by decide) drawn, ?_⟩
    change 456 * video.ly.toNat + 80 = (456 * video.ly.toNat + 0 + 80) % 70224
    omega
  · have drawn := online.drawn mode (by decide)
    rw [after, modeStart, modeStart, mode]
    refine ⟨of_drawn (show Mode.hblank ≠ .vblank by decide) drawn, ?_⟩
    change 456 * video.ly.toNat + 252 = (456 * video.ly.toNat + 80 + 172) % 70224
    omega
  · have ends := atVblank.mp last
    rw [after, thenCompare_eq, modeStart, modeStart, mode]
    refine ⟨of_vblank rfl ?_ ?_, ?_⟩
    · change 144 <= (video.ly + 1).toNat
      omega
    · change (video.ly + 1).toNat <= 153
      omega
    · change 456 * (video.ly + 1).toNat + 0 = (456 * video.ly.toNat + 252 + 204) % 70224
      omega
  · have drawn := online.drawn mode (by decide)
    have goesOn : video.ly.toNat + 1 ≠ 144 := fun ends => more (atVblank.mpr ends)
    rw [after, thenCompare_eq, modeStart, modeStart, mode]
    refine ⟨of_drawn (show Mode.oamScan ≠ .vblank by decide) ?_, ?_⟩
    · change (video.ly + 1).toNat < 144
      omega
    · change 456 * (video.ly + 1).toNat + 0 = (456 * video.ly.toNat + 252 + 204) % 70224
      omega
  · have reached := online.vblank_iff.mp mode
    have goesOn : video.ly.toNat < 153 := UInt8.lt_iff_toNat_lt.mp more
    rw [after, thenCompare_eq, modeStart, modeStart, mode]
    refine ⟨of_vblank rfl ?_ ?_, ?_⟩
    · change 144 <= (video.ly + 1).toNat
      omega
    · change (video.ly + 1).toNat <= 153
      omega
    · change 456 * (video.ly + 1).toNat + 0 = (456 * video.ly.toNat + 0 + 456) % 70224
      omega
  · have bound := online.ly_le
    have ends : ¬ video.ly.toNat < 153 := fun more => last (UInt8.lt_iff_toNat_lt.mpr more)
    rw [after, thenCompare_eq, modeStart, modeStart, mode]
    refine ⟨of_drawn (show Mode.oamScan ≠ .vblank by decide)
      (by decide : (0 : UInt8).toNat < 144), ?_⟩
    change 456 * 0 + 0 = (456 * video.ly.toNat + 0 + 456) % 70224
    omega

/-- The line, the mode and the clock fit together, and a unit whose display is
off is at the top of a picture. -/
structure Settled (video : Video) : Prop where
  online : video.OnLine
  clock_lt : video.clock < video.mode.duration
  parked : video.control.isOn = false -> video.position = 0

theorem settled_initial (shades : Shades) : (initial shades).Settled :=
  ⟨OnLine.of_drawn (show Mode.oamScan ≠ .vblank by decide) (by decide : (0 : UInt8).toNat < 144),
    (by decide : (0 : Nat) < 80), fun _ => rfl⟩

theorem OnLine.samePicture {first second : Video} (online : first.OnLine)
    (same : SamePicture first second) : second.OnLine := by
  refine ⟨?_, ?_⟩
  · rw [same.ly]
    exact online.ly_le
  · rw [same.ly, same.mode]
    exact online.vblank_iff

theorem Settled.apply {video : Video} (settled : video.Settled) (command : Command) :
    (video.apply command).Settled := by
  rcases apply_cases video command with
    ⟨-, after⟩ | ⟨-, control, off, after⟩ | ⟨-, same, clock, bright⟩
  · rw [after]
    exact settled_initial video.shades
  · rw [after]
    exact ⟨OnLine.of_drawn (show Mode.oamScan ≠ .vblank by decide)
      (by decide : (0 : UInt8).toNat < 144), (by decide : (0 : Nat) < 80), fun _ => rfl⟩
  · refine ⟨settled.online.samePicture same, ?_, fun off => ?_⟩
    · rw [clock, same.mode]
      exact settled.clock_lt
    · have dark : video.control.isOn = false := by
        apply Bool.eq_false_iff.mpr
        intro on
        rw [bright on] at off
        cases off
      rw [position, modeStart, same.mode, same.ly, clock]
      exact settled.parked dark

/-! ## What the cycle leaves alone -/

/-- The bits of the status register that are switches. -/
def switchMask : UInt8 := 0x78

theorem and_switchMask_or (first second : UInt8) (none : second &&& switchMask = 0) :
    (first ||| second) &&& switchMask = first &&& switchMask := by
  have bits := congrArg UInt8.toBitVec none
  rw [UInt8.toBitVec_and] at bits
  rw [← UInt8.toBitVec_inj, UInt8.toBitVec_and, UInt8.toBitVec_or, BitVec.and_or_distrib_right,
    bits]
  exact BitVec.or_zero

theorem and_switchMask_and (first second : UInt8) (all : second &&& switchMask = switchMask) :
    (first &&& second) &&& switchMask = first &&& switchMask := by
  rw [UInt8.and_assoc, all]

/-- Two states agree in what decides which events ask for interrupts. -/
structure SameSettings (first second : Video) : Prop where
  switches : second.stat &&& switchMask = first.stat &&& switchMask
  lyc : second.lyc = first.lyc
  control : second.control = first.control

theorem SameSettings.trans {first second third : Video} (early : SameSettings first second)
    (late : SameSettings second third) : SameSettings first third :=
  ⟨late.switches.trans early.switches, late.lyc.trans early.lyc,
    late.control.trans early.control⟩

theorem SameSettings.refl (video : Video) : SameSettings video video :=
  ⟨rfl, rfl, rfl⟩

theorem setMode_switches (video : Video) (mode : Mode) :
    (video.setMode mode).stat &&& switchMask = video.stat &&& switchMask := by
  have code : mode.code &&& switchMask = 0 := by
    cases mode <;> rfl
  change (video.stat &&& 0xFC ||| mode.code) &&& switchMask = video.stat &&& switchMask
  rw [and_switchMask_or _ _ code, and_switchMask_and _ _ rfl]

theorem comparedStat_switches (video : Video) :
    video.comparedStat &&& switchMask = video.stat &&& switchMask := by
  rw [comparedStat]
  split
  · exact and_switchMask_or _ _ rfl
  · exact and_switchMask_and _ _ rfl

theorem SameSettings.finishMode (video : Video) : SameSettings video video.finishMode.1 := by
  rcases finishMode_cases video with
    ⟨-, after⟩ | ⟨-, sheet, map, after⟩ | ⟨-, -, after⟩ | ⟨-, -, after⟩ | ⟨-, -, after⟩ |
    ⟨-, -, after⟩
  · rw [after]
    exact ⟨setMode_switches video .drawing, rfl, rfl⟩
  · rw [after]
    exact ⟨setMode_switches video.drawLine .hblank, rfl, rfl⟩
  · rw [after, thenCompare_eq]
    exact ⟨(comparedStat_switches _).trans (setMode_switches _ .vblank), rfl, rfl⟩
  · rw [after, thenCompare_eq]
    exact ⟨(comparedStat_switches _).trans (setMode_switches _ .oamScan), rfl, rfl⟩
  · rw [after, thenCompare_eq]
    exact ⟨comparedStat_switches _, rfl, rfl⟩
  · rw [after, thenCompare_eq]
    exact ⟨(comparedStat_switches _).trans (setMode_switches _ .oamScan), rfl, rfl⟩

theorem SameSettings.expire (video : Video) : SameSettings video video.expire.1 := by
  rw [expire_eq]
  exact ⟨(finishMode video).switches, (finishMode video).lyc, (finishMode video).control⟩

theorem SameSettings.expireAll (video : Video) : SameSettings video video.expireAll.1 := by
  induction video using expireAll.induct with
  | case1 video due inductionHypothesis =>
      rw [expireAll_of_le due]
      exact (expire video).trans inductionHypothesis
  | case2 video within =>
      rw [expireAll_of_lt (Nat.not_le.mp within)]
      exact ⟨rfl, rfl, rfl⟩

theorem SameSettings.elapse (video : Video) (cycles : Nat) :
    SameSettings video (video.elapse cycles).1 := by
  rw [Video.elapse, compareLine_eq]
  exact ⟨comparedStat_switches video, rfl, rfl⟩

/-! ## A whole span of time -/

theorem OnLine.expire {video : Video} (online : video.OnLine) :
    video.expire.1.OnLine ∧
      video.expire.1.modeStart = (video.modeStart + video.mode.duration) % 70224 := by
  rw [expire_eq]
  exact ⟨⟨online.finishMode.1.ly_le, online.finishMode.1.vblank_iff⟩, online.finishMode.2⟩

theorem OnLine.elapse {video : Video} (online : video.OnLine) (cycles : Nat) :
    (video.elapse cycles).1.OnLine ∧ (video.elapse cycles).1.modeStart = video.modeStart := by
  rw [Video.elapse, compareLine_eq]
  exact ⟨⟨online.ly_le, online.vblank_iff⟩, rfl⟩

/-- No mode goes beyond its line. -/
theorem modeEnd_le (video : Video) :
    video.modeStart + video.mode.duration <= 456 * video.ly.toNat + 456 := by
  rw [modeStart]
  cases video.mode <;> simp only [Mode.offset, Mode.duration] <;> omega

theorem clock_expireAll (video : Video) :
    video.expireAll.1.clock < video.expireAll.1.mode.duration := by
  induction video using expireAll.induct with
  | case1 video due inductionHypothesis =>
      rw [expireAll_of_le due]
      exact inductionHypothesis
  | case2 video within =>
      rw [expireAll_of_lt (Nat.not_le.mp within)]
      exact Nat.not_le.mp within

/-- The clock runs out into the place in the picture, picture after picture. -/
theorem OnLine.expireAll {video : Video} (online : video.OnLine) :
    video.expireAll.1.OnLine ∧ video.expireAll.1.position = video.position % 70224 := by
  induction video using expireAll.induct with
  | case1 video due inductionHypothesis =>
      rcases online.expire with ⟨stays, start⟩
      rcases inductionHypothesis stays with ⟨ends, place⟩
      rw [expireAll_of_le due]
      refine ⟨ends, place.trans ?_⟩
      have clock : video.expire.1.clock = video.clock - video.mode.duration := by
        rw [expire_eq]
        rfl
      rw [position, position, start, clock]
      omega
  | case2 video within =>
      have bound := online.ly_le
      have ends := video.modeEnd_le
      rw [expireAll_of_lt (Nat.not_le.mp within)]
      refine ⟨online, ?_⟩
      change video.modeStart + video.clock = (video.modeStart + video.clock) % 70224
      omega

theorem OnLine.step {video : Video} (online : video.OnLine) (on : video.control.isOn = true)
    (cycles : Nat) :
    (video.step cycles).1.OnLine ∧
      (video.step cycles).1.position = (video.position + cycles) % 70224 := by
  rcases online.elapse cycles with ⟨stays, start⟩
  rcases stays.expireAll with ⟨ends, place⟩
  rw [step_of_on on]
  refine ⟨ends, place.trans ?_⟩
  rw [position, start]
  change (video.modeStart + (video.clock + cycles)) % 70224 = _
  rw [position, Nat.add_assoc]

theorem Settled.step {video : Video} (settled : video.Settled) (cycles : Nat) :
    (video.step cycles).1.Settled := by
  cases on : video.control.isOn with
  | true =>
      rcases settled.online.step on cycles with ⟨online, -⟩
      refine ⟨online, ?_, fun off => ?_⟩
      · rw [step_of_on on]
        exact clock_expireAll _
      · rw [step_of_on on] at off
        rw [(SameSettings.expireAll _).control, (SameSettings.elapse video cycles).control,
          on] at off
        cases off
  | false =>
      rw [step_of_off on]
      exact settled

theorem Settled.actAll {video : Video} (settled : video.Settled) (actions : List Action) :
    (video.actAll actions).Settled := by
  induction actions generalizing video with
  | nil => exact settled
  | cons action actions inductionHypothesis =>
      cases action with
      | command command => exact inductionHypothesis (settled.apply command)
      | step cycles => exact inductionHypothesis (settled.step cycles)

theorem Reached.settled {video : Video} (reached : video.Reached) : video.Settled := by
  rcases reached with ⟨shades, actions, rfl⟩
  exact (settled_initial shades).actAll actions

end Video

end Dmg
