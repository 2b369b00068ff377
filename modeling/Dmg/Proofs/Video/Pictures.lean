import Dmg.Proofs.Video.Publication

/-!
# How many pictures are shown

While the display is on, a picture is shown every 70224 clock cycles, at one place of
the cycle.  Whatever else is done to the unit meanwhile moves this place neither
closer nor away.  So the number of pictures that are shown in a span follows from
where the span begins and how long it is.
-/

namespace Dmg

/-- What the items of a list cost together. -/
def total {Item : Type} (cost : Item -> Nat) : List Item -> Nat
  | [] => 0
  | item :: items => cost item + total cost items

theorem total_append {Item : Type} (cost : Item -> Nat) (early late : List Item) :
    total cost (early ++ late) = total cost early + total cost late := by
  induction early with
  | nil => exact (Nat.zero_add _).symm
  | cons item early inductionHypothesis =>
      rw [List.cons_append, total, total, inductionHypothesis, Nat.add_assoc]

namespace Video

/-! ## Counting -/

def Action.cycles : Action -> Nat
  | .command _ => 0
  | .step cycles => cycles

def elapsed (actions : List Action) : Nat :=
  total Action.cycles actions

/-- The number of pictures that have been shown when some clock cycles have passed
since the top of the first one.  Each is shown 4560 clock cycles before the top of the
next. -/
def picturesUntil (place : Nat) : Nat :=
  (place + 4560) / 70224

/-- The number of pictures that are shown among some moments. -/
def picturesShown (moments : List Moment) : Nat :=
  moments.countP Moment.entersVblank

theorem picturesShown_append (early late : List Moment) :
    picturesShown (early ++ late) = picturesShown early + picturesShown late :=
  List.countP_append

theorem picturesShown_cons_of_not {moment : Moment} (stays : moment.entersVblank = false)
    (moments : List Moment) : picturesShown (moment :: moments) = picturesShown moments :=
  List.countP_cons_of_neg (Bool.eq_false_iff.mp stays)

/-- Whole pictures may be counted apart. -/
theorem picturesUntil_mod (place length : Nat) :
    picturesUntil (place % 70224 + length) + picturesUntil place =
      picturesUntil (place + length) + picturesUntil (place % 70224) := by
  rw [picturesUntil, picturesUntil, picturesUntil, picturesUntil]
  omega

/-! ## The end of a mode -/

/-- No picture is shown while a mode lasts. -/
theorem OnLine.picturesUntil_modeStart {video : Video} (online : video.OnLine) {clock : Nat}
    (within : clock < video.mode.duration) :
    picturesUntil (video.modeStart + clock) = picturesUntil video.modeStart := by
  have bound := online.ly_le
  have ends := video.modeEnd_le
  have starts : 456 * video.ly.toNat <= video.modeStart := Nat.le_add_right _ _
  rw [picturesUntil, picturesUntil]
  by_cases between : 144 <= video.ly.toNat <;> omega

/-- A picture is shown at the end of the last line that is drawn, and at the end of no
other mode. -/
theorem OnLine.picturesShown_expire {video : Video} (online : video.OnLine) :
    picturesShown [⟨video, .expire⟩] + picturesUntil video.modeStart =
      picturesUntil (video.modeStart + video.mode.duration) := by
  have bound := online.ly_le
  have lastLine := next_eq_vblankLine_iff online
  have drawn {mode : Mode} (present : video.mode = mode) (other : mode ≠ .vblank) :
      video.ly.toNat < 144 :=
    online.drawn present other
  have none (stays : Moment.entersVblank ⟨video, .expire⟩ = false) :
      picturesShown [⟨video, .expire⟩] = 0 :=
    picturesShown_cons_of_not stays []
  rw [picturesUntil, picturesUntil, modeStart]
  rcases expire_cases video with
    ⟨mode, next, -⟩ | ⟨mode, next, -⟩ | ⟨mode, last, next, -⟩ | ⟨mode, more, next, -⟩ |
    ⟨mode, -, next, -⟩ | ⟨mode, -, next, -⟩
  · have line := drawn mode (by decide)
    rw [none (entersVblank_of_ne next (by decide)), mode]
    change 0 + (456 * video.ly.toNat + 0 + 4560) / 70224 =
      (456 * video.ly.toNat + 0 + 80 + 4560) / 70224
    omega
  · have line := drawn mode (by decide)
    rw [none (entersVblank_of_ne next (by decide)), mode]
    change 0 + (456 * video.ly.toNat + 80 + 4560) / 70224 =
      (456 * video.ly.toNat + 80 + 172 + 4560) / 70224
    omega
  · have enters : Moment.entersVblank ⟨video, .expire⟩ = true := by
      change (video.mode != .vblank && video.expire.1.mode == .vblank) = true
      rw [mode, next]
      rfl
    have one : picturesShown [⟨video, .expire⟩] = 1 := List.countP_cons_of_pos enters
    have line := lastLine.mp last
    rw [one, mode]
    change 1 + (456 * video.ly.toNat + 252 + 4560) / 70224 =
      (456 * video.ly.toNat + 252 + 204 + 4560) / 70224
    omega
  · have line := drawn mode (by decide)
    have goesOn : video.ly.toNat + 1 ≠ 144 := fun ends => more (lastLine.mpr ends)
    rw [none (entersVblank_of_ne next (by decide)), mode]
    change 0 + (456 * video.ly.toNat + 252 + 4560) / 70224 =
      (456 * video.ly.toNat + 252 + 204 + 4560) / 70224
    omega
  · have line := online.vblank_iff.mp mode
    rw [none (entersVblank_of_eq (next.trans mode.symm)), mode]
    change 0 + (456 * video.ly.toNat + 0 + 4560) / 70224 =
      (456 * video.ly.toNat + 0 + 456 + 4560) / 70224
    omega
  · have line := online.vblank_iff.mp mode
    rw [none (entersVblank_of_ne next (by decide)), mode]
    change 0 + (456 * video.ly.toNat + 0 + 4560) / 70224 =
      (456 * video.ly.toNat + 0 + 456 + 4560) / 70224
    omega

/-! ## Spans of time -/

/-- As many pictures are shown as places of showing lie within the clock. -/
theorem OnLine.picturesShown_expiries {video : Video} (online : video.OnLine) :
    picturesShown video.expiries + picturesUntil video.modeStart =
      picturesUntil video.position := by
  induction video using expiries.induct with
  | case1 video due inductionHypothesis =>
      rcases online.expire with ⟨stays, start⟩
      have clock : video.expire.1.clock = video.clock - video.mode.duration := by
        rw [expire_eq]
        rfl
      have split : video.expiries = [⟨video, .expire⟩] ++ video.expire.1.expiries := by
        rw [expiries, if_pos due]
        rfl
      have first := online.picturesShown_expire
      have later := inductionHypothesis stays
      have whole := picturesUntil_mod (video.modeStart + video.mode.duration)
        (video.clock - video.mode.duration)
      have sum : video.modeStart + video.mode.duration + (video.clock - video.mode.duration) =
          video.position := by
        rw [position]
        omega
      rw [position, start, clock] at later
      rw [sum] at whole
      rw [split, picturesShown_append]
      omega
  | case2 video within =>
      rw [expiries, if_neg within, position,
        online.picturesUntil_modeStart (Nat.not_le.mp within)]
      exact Nat.zero_add _

theorem Settled.picturesShown_step {video : Video} (settled : video.Settled)
    (on : video.control.isOn = true) (cycles : Nat) :
    picturesShown (video.moments (.step cycles)) + picturesUntil video.position =
      picturesUntil (video.position + cycles) := by
  rcases settled.online.elapse cycles with ⟨stays, start⟩
  have shown := stays.picturesShown_expiries
  have still : Moment.entersVblank ⟨video, .elapse cycles⟩ = false :=
    entersVblank_of_eq (SamePicture.elapse video cycles).mode
  have place : (video.elapse cycles).1.position = video.position + cycles := by
    rw [position, start, position, Nat.add_assoc]
    rfl
  have before : picturesUntil video.position = picturesUntil video.modeStart :=
    settled.online.picturesUntil_modeStart settled.clock_lt
  rw [start, place] at shown
  rw [moments, if_pos on, picturesShown_cons_of_not still, before]
  exact shown

/-! ## Whole trails -/

theorem trail_append (video : Video) (early late : List Action) :
    video.trail (early ++ late) = video.trail early ++ (video.actAll early).trail late := by
  induction early generalizing video with
  | nil => rfl
  | cons action early inductionHypothesis =>
      rw [List.cons_append, trail, trail, inductionHypothesis, List.append_assoc]
      rfl

theorem happening_of_mem_expiries {video : Video} {moment : Moment}
    (member : moment ∈ video.expiries) : moment.happening = .expire := by
  induction video using expiries.induct with
  | case1 video due inductionHypothesis =>
      rw [expiries, if_pos due] at member
      rcases List.mem_cons.mp member with rfl | later
      · rfl
      · exact inductionHypothesis later
  | case2 video within =>
      rw [expiries, if_neg within] at member
      cases member

/-- No command is applied while time passes. -/
theorem happening_of_mem_step {video : Video} {cycles : Nat} {moment : Moment}
    (member : moment ∈ video.moments (.step cycles)) :
    moment.happening = .elapse cycles ∨ moment.happening = .expire := by
  rw [moments] at member
  split at member
  · rcases List.mem_cons.mp member with rfl | later
    · exact .inl rfl
    · exact .inr (happening_of_mem_expiries later)
  · cases member

/-- Time does not make the screen white. -/
theorem whitens_of_mem_step {video : Video} {cycles : Nat} {moment : Moment}
    (member : moment ∈ video.moments (.step cycles)) : moment.whitens = false := by
  rcases happening_of_mem_step member with passes | ends
  · rw [Moment.whitens, passes]
  · rw [Moment.whitens, ends]

/-- A store that leaves the display on has not switched it off. -/
theorem not_clears_of_isOn {video : Video} {register : VideoRegister} {byte : UInt8}
    (on : (video.writeRegister register byte).1.control.isOn = true) :
    video.clears (.writeRegister register byte) = false := by
  cases register with
  | lcdc =>
      cases off : (LcdControl.mk byte).isOn with
      | true =>
          change (video.control.isOn && !(LcdControl.mk byte).isOn) = false
          rw [off]
          exact Bool.and_false _
      | false => exact absurd ((isOn_writeControl off).symm.trans on) Bool.false_ne_true
  | _ => rfl

/-- A span in which the screen is not made white: the display is on from beginning to
end, and time alone moves the unit on. -/
structure Spans (first last : Video) (moments : List Moment) (length : Nat) : Prop where
  on : last.control.isOn = true
  place : last.position = (first.position + length) % 70224
  shown : picturesShown moments + picturesUntil first.position =
    picturesUntil (first.position + length)

theorem Settled.spans_nil {video : Video} (settled : video.Settled)
    (on : video.control.isOn = true) : Spans video video [] 0 := by
  have bound := settled.online.ly_le
  have ends := video.modeEnd_le
  have within := settled.clock_lt
  refine ⟨on, ?_, Nat.zero_add _⟩
  rw [position]
  omega

theorem Spans.append {first middle last : Video} {early late : List Moment}
    {earlyLength lateLength : Nat} (begins : Spans first middle early earlyLength)
    (goesOn : Spans middle last late lateLength) :
    Spans first last (early ++ late) (earlyLength + lateLength) := by
  refine ⟨goesOn.on, ?_, ?_⟩
  · rw [goesOn.place, begins.place]
    omega
  · have shown := goesOn.shown
    have whole := picturesUntil_mod (first.position + earlyLength) lateLength
    have before := begins.shown
    rw [begins.place] at shown
    rw [picturesShown_append, ← Nat.add_assoc first.position]
    omega

/-- A command that does not make the screen white takes no time and shows nothing. -/
theorem Settled.spans_command {video : Video} (settled : video.Settled)
    (on : video.control.isOn = true) {command : Command} (stays : video.clears command = false) :
    Spans video (video.apply command) (video.moments (.command command)) 0 := by
  have none := settled.spans_nil on
  rcases apply_cases video command with ⟨clears, -⟩ | ⟨clears, -⟩ | ⟨-, same, clock, bright⟩
  · exact absurd (stays.symm.trans clears) Bool.false_ne_true
  · exact absurd (stays.symm.trans clears) Bool.false_ne_true
  · have still : Moment.entersVblank ⟨video, .command command⟩ = false :=
      entersVblank_of_eq same.mode
    have place : (video.apply command).position = video.position := by
      rw [position, position, modeStart, modeStart, same.mode, same.ly, clock]
    refine ⟨bright on, place.trans none.place, ?_⟩
    rw [moments, picturesShown_cons_of_not still]
    exact none.shown

theorem Settled.spans_step {video : Video} (settled : video.Settled)
    (on : video.control.isOn = true) (cycles : Nat) :
    Spans video (video.step cycles).1 (video.moments (.step cycles)) cycles where
  on := by
    rw [step_of_on on, (SameSettings.expireAll _).control,
      (SameSettings.elapse video cycles).control]
    exact on
  place := (settled.online.step on cycles).2
  shown := settled.picturesShown_step on cycles

theorem Settled.spans_trail {video : Video} (settled : video.Settled)
    (on : video.control.isOn = true) {actions : List Action}
    (bright : ∀ moment ∈ video.trail actions, moment.whitens = false) :
    Spans video (video.actAll actions) (video.trail actions) (elapsed actions) := by
  induction actions generalizing video with
  | nil => exact settled.spans_nil on
  | cons action actions inductionHypothesis =>
      rcases List.forall_mem_append.mp bright with ⟨first, others⟩
      have one : Spans video (video.act action) (video.moments action) action.cycles := by
        cases action with
        | command command =>
            exact settled.spans_command on (first _ (List.mem_singleton_self _))
        | step cycles => exact settled.spans_step on cycles
      have kept : (video.act action).Settled := settled.actAll [action]
      exact one.append (inductionHypothesis kept one.on others)

/-! ## What a picture shows -/

/-- A moment shows the picture whose lines were all drawn since it began. -/
structure Publishes (past : List Moment) (moment : Moment) : Prop where
  lines : (drawn past).map (fun line => line.before.ly.toNat) = List.range 144
  rows : moment.after.front.toList = (drawn past).map (fun line => line.before.composeLine)

/-- Whatever has been done to the unit, every picture that it shows from now on is one
that has just been composed. -/
theorem Reached.exists_publishes {video : Video} (reached : video.Reached) :
    ∃ shades past, Follows (initial shades) past video ∧
      ∀ actions early moment late, video.trail actions = early ++ moment :: late ->
        moment.entersVblank = true -> Publishes (past ++ early) moment := by
  rcases reached with ⟨shades, earlier, rfl⟩
  have leads := follows_trail (initial shades) earlier
  refine ⟨shades, _, leads, fun actions early moment late split enters => ?_⟩
  have goesOn := follows_trail ((initial shades).actAll earlier) actions
  rw [split] at goesOn
  have composed := (composed_initial shades).follows (leads.append goesOn.split.1)
  rcases composed.shown enters with ⟨lines, rows⟩
  exact ⟨lines, rows⟩

end Video

end Dmg
