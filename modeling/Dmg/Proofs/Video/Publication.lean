import Dmg.Proofs.Video.Trail

/-!
# The picture that is shown

Two frames take turns: one is composed while the other is shown, and what was
shown before is still in the frame that is composed next.  No old pixel is shown
again all the same, because every picture is composed anew from its first line to
its last.

The proof follows the lines drawn since the top of the picture.  As long as the
unit is above the pause between two pictures, they are the first lines of the
frame that is composed, one for each line the unit has gone through.
-/

namespace Dmg

namespace Video

namespace Moment

/-- Whether the screen is made white. -/
def whitens (moment : Moment) : Bool :=
  match moment.happening with
  | .command command => moment.before.clears command
  | _ => false

/-- Whether a picture begins: the line becomes the first one. -/
def startsPicture (moment : Moment) : Bool :=
  moment.whitens || (moment.before.ly != 0 && moment.after.ly == 0)

/-- Whether drawing comes to its end. -/
def endsDrawing (moment : Moment) : Bool :=
  match moment.happening with
  | .expire => moment.before.mode == .drawing
  | _ => false

/-- Whether the pause between two pictures begins. -/
def entersVblank (moment : Moment) : Bool :=
  moment.before.mode != .vblank && moment.after.mode == .vblank

end Moment

/-- The moments since the last one that began a picture. -/
def sinceStart (past : List Moment) : List Moment :=
  (past.reverse.takeWhile fun moment => !moment.startsPicture).reverse

/-- The moments at which the lines of the present picture were drawn. -/
def drawn (past : List Moment) : List Moment :=
  (sinceStart past).filter Moment.endsDrawing

theorem drawn_of_startsPicture (past : List Moment) {moment : Moment}
    (starts : moment.startsPicture = true) : drawn (past ++ [moment]) = [] := by
  rw [drawn, sinceStart, List.reverse_append]
  change ((moment :: past.reverse).takeWhile _).reverse.filter _ = []
  rw [List.takeWhile_cons_of_neg (by rw [starts]; decide)]
  rfl

theorem drawn_of_endsDrawing (past : List Moment) {moment : Moment}
    (starts : moment.startsPicture = false) (ends : moment.endsDrawing = true) :
    drawn (past ++ [moment]) = drawn past ++ [moment] := by
  rw [drawn, sinceStart, List.reverse_append]
  change ((moment :: past.reverse).takeWhile _).reverse.filter _ = _
  rw [List.takeWhile_cons_of_pos (by rw [starts]; rfl), List.reverse_cons, List.filter_append,
    List.filter_cons_of_pos ends]
  rfl

theorem drawn_of_else (past : List Moment) {moment : Moment}
    (starts : moment.startsPicture = false) (ends : moment.endsDrawing = false) :
    drawn (past ++ [moment]) = drawn past := by
  rw [drawn, sinceStart, List.reverse_append]
  change ((moment :: past.reverse).takeWhile _).reverse.filter _ = _
  rw [List.takeWhile_cons_of_pos (by rw [starts]; rfl), List.reverse_cons, List.filter_append,
    List.filter_cons_of_neg (Bool.eq_false_iff.mp ends), List.filter_nil, List.append_nil]
  rfl

/-- The number of lines that have been drawn since the top of the picture. -/
def linesDone (video : Video) : Nat :=
  match video.mode with
  | .oamScan => video.ly.toNat
  | .drawing => video.ly.toNat
  | .hblank => video.ly.toNat + 1
  | .vblank => 144

/-- The lines of the present picture were drawn one by one, and until the picture
is shown they are in the frame that is composed. -/
structure Composed (past : List Moment) (video : Video) : Prop where
  online : video.OnLine
  lines : (drawn past).map (fun line => line.before.ly.toNat) = List.range video.linesDone
  rows : video.mode ≠ .vblank ->
    video.back.toList.take video.linesDone = (drawn past).map (fun line => line.before.composeLine)

theorem composed_initial (shades : Shades) : Composed [] (initial shades) :=
  ⟨(settled_initial shades).online, rfl, fun _ => rfl⟩

/-- At the top of a picture nothing has been drawn. -/
theorem Composed.of_startsPicture {past : List Moment} {moment : Moment}
    (starts : moment.startsPicture = true) (mode : moment.after.mode = .oamScan)
    (top : moment.after.ly.toNat = 0) : Composed (past ++ [moment]) moment.after := by
  have none : moment.after.linesDone = 0 := by
    rw [linesDone, mode]
    exact top
  refine ⟨OnLine.of_drawn (by rw [mode]; decide) (by omega), ?_, fun _ => ?_⟩
  · rw [drawn_of_startsPicture past starts, none]
    rfl
  · rw [drawn_of_startsPicture past starts, none]
    rfl

/-- What draws no line and begins no picture keeps the lines that were drawn,
whether or not it goes on to another mode. -/
theorem Composed.of_else {past : List Moment} {moment : Moment}
    (composed : Composed past moment.before) (starts : moment.startsPicture = false)
    (ends : moment.endsDrawing = false) (online : moment.after.OnLine)
    (done : moment.after.linesDone = moment.before.linesDone)
    (kept : moment.after.mode ≠ .vblank ->
      moment.before.mode ≠ .vblank ∧ moment.after.back = moment.before.back) :
    Composed (past ++ [moment]) moment.after := by
  refine ⟨online, ?_, fun mode => ?_⟩
  · rw [drawn_of_else past starts ends, done]
    exact composed.lines
  · rcases kept mode with ⟨before, back⟩
    rw [drawn_of_else past starts ends, done, back]
    exact composed.rows before

/-- A unit that stays where it is begins no picture. -/
theorem startsPicture_of_samePicture {moment : Moment} (dark : moment.whitens = false)
    (same : SamePicture moment.before moment.after) : moment.startsPicture = false := by
  rw [Moment.startsPicture, dark, Bool.false_or, same.ly]
  exact Bool.not_and_self _

theorem linesDone_of_samePicture {first second : Video} (same : SamePicture first second) :
    second.linesDone = first.linesDone := by
  rw [linesDone, linesDone, same.mode, same.ly]

theorem Composed.of_samePicture {past : List Moment} {moment : Moment}
    (composed : Composed past moment.before) (dark : moment.whitens = false)
    (ends : moment.endsDrawing = false) (same : SamePicture moment.before moment.after) :
    Composed (past ++ [moment]) moment.after := by
  refine composed.of_else (startsPicture_of_samePicture dark same) ends
    (composed.online.samePicture same) (linesDone_of_samePicture same) (fun mode => ⟨?_, same.back⟩)
  rw [← same.mode]
  exact mode

/-! ## Commands and the passing of time -/

theorem SamePicture.elapse (video : Video) (cycles : Nat) :
    SamePicture video (video.elapse cycles).1 := by
  rw [Video.elapse, compareLine_eq]
  exact ⟨rfl, rfl, rfl, rfl⟩

theorem Composed.command {past : List Moment} {video : Video} (composed : Composed past video)
    (command : Command) :
    Composed (past ++ [⟨video, .command command⟩]) (video.apply command) := by
  have starts (clears : video.clears command = true) :
      Moment.startsPicture ⟨video, .command command⟩ = true := by
    change (video.clears command || _) = true
    rw [clears, Bool.true_or]
  rcases apply_cases video command with
    ⟨clears, after⟩ | ⟨clears, control, -, after⟩ | ⟨stays, same, -, -⟩
  · exact of_startsPicture (starts clears) (congrArg Video.mode after)
      (congrArg (fun later : Video => later.ly.toNat) after)
  · exact of_startsPicture (starts clears) (congrArg Video.mode after)
      (congrArg (fun later : Video => later.ly.toNat) after)
  · exact composed.of_samePicture stays rfl same

theorem Composed.elapse {past : List Moment} {video : Video} (composed : Composed past video)
    (cycles : Nat) :
    Composed (past ++ [⟨video, .elapse cycles⟩]) (video.elapse cycles).1 :=
  composed.of_samePicture rfl rfl (SamePicture.elapse video cycles)

/-! ## The end of a mode -/

/-- The six ways in which a mode ends, as far as the pictures are concerned. -/
theorem expire_cases (video : Video) :
    (video.mode = .oamScan ∧ video.expire.1.mode = .drawing ∧ video.expire.1.ly = video.ly ∧
      video.expire.1.back = video.back ∧ video.expire.1.front = video.front) ∨
    (video.mode = .drawing ∧ video.expire.1.mode = .hblank ∧ video.expire.1.ly = video.ly ∧
      video.expire.1.back = video.back.setIfInBounds video.ly.toNat video.composeLine ∧
      video.expire.1.front = video.front) ∨
    (video.mode = .hblank ∧ video.ly + 1 = vblankLine ∧ video.expire.1.mode = .vblank ∧
      video.expire.1.ly = video.ly + 1 ∧
      video.expire.1.back = video.front ∧ video.expire.1.front = video.back) ∨
    (video.mode = .hblank ∧ video.ly + 1 ≠ vblankLine ∧ video.expire.1.mode = .oamScan ∧
      video.expire.1.ly = video.ly + 1 ∧
      video.expire.1.back = video.back ∧ video.expire.1.front = video.front) ∨
    (video.mode = .vblank ∧ video.ly < lastLine ∧ video.expire.1.mode = .vblank ∧
      video.expire.1.ly = video.ly + 1 ∧
      video.expire.1.back = video.back ∧ video.expire.1.front = video.front) ∨
    (video.mode = .vblank ∧ ¬ video.ly < lastLine ∧ video.expire.1.mode = .oamScan ∧
      video.expire.1.ly = 0 ∧
      video.expire.1.back = video.back ∧ video.expire.1.front = video.front) := by
  rw [expire_eq]
  rcases finishMode_cases video with
    ⟨mode, after⟩ | ⟨mode, sheet, map, after⟩ | ⟨mode, last, after⟩ | ⟨mode, more, after⟩ |
    ⟨mode, more, after⟩ | ⟨mode, last, after⟩
  · rw [after]
    exact Or.inl ⟨mode, rfl, rfl, rfl, rfl⟩
  · rw [after]
    exact Or.inr (Or.inl ⟨mode, rfl, rfl, rfl, rfl⟩)
  · rw [after, thenCompare_eq]
    exact Or.inr (Or.inr (Or.inl ⟨mode, last, rfl, rfl, rfl, rfl⟩))
  · rw [after, thenCompare_eq]
    exact Or.inr (Or.inr (Or.inr (Or.inl ⟨mode, more, rfl, rfl, rfl, rfl⟩)))
  · rw [after, thenCompare_eq]
    exact Or.inr (Or.inr (Or.inr (Or.inr (Or.inl ⟨mode, more, mode, rfl, rfl, rfl⟩))))
  · rw [after, thenCompare_eq]
    exact Or.inr (Or.inr (Or.inr (Or.inr (Or.inr ⟨mode, last, rfl, rfl, rfl, rfl⟩))))

/-- A line put behind the first ones of a frame. -/
theorem take_setIfInBounds (frame : Frame) (line : Nat) (row : ColorLine) (inside : line < 144) :
    (frame.setIfInBounds line row).toList.take (line + 1) = frame.toList.take line ++ [row] := by
  have within : line < frame.toList.length := by
    rw [Vector.length_toList]
    exact inside
  rw [Vector.toList_setIfInBounds, List.take_add_one, List.take_set_of_le (Nat.le_refl line),
    List.getElem?_set_self within]
  rfl

theorem startsPicture_expire_of_ne {video : Video} (later : video.expire.1.ly ≠ 0) :
    Moment.startsPicture ⟨video, .expire⟩ = false := by
  change (video.ly != 0 && video.expire.1.ly == 0) = false
  rw [beq_eq_false_iff_ne.mpr later, Bool.and_false]

theorem startsPicture_expire_of_eq {video : Video} (same : video.expire.1.ly = video.ly) :
    Moment.startsPicture ⟨video, .expire⟩ = false := by
  change (video.ly != 0 && video.expire.1.ly == 0) = false
  rw [same]
  exact Bool.not_and_self _

theorem endsDrawing_expire_of_ne {video : Video} {mode : Mode} (present : video.mode = mode)
    (other : mode ≠ .drawing) : Moment.endsDrawing ⟨video, .expire⟩ = false := by
  change (video.mode == .drawing) = false
  rw [present]
  exact beq_eq_false_iff_ne.mpr other

theorem ly_add_one_ne_zero {video : Video} (online : video.OnLine) : video.ly + 1 ≠ 0 := by
  intro zero
  have next := toNat_ly_add_one online
  rw [zero] at next
  cases next

theorem Composed.expire {past : List Moment} {video : Video} (composed : Composed past video) :
    Composed (past ++ [⟨video, .expire⟩]) video.expire.1 := by
  have online := composed.online
  have stays : video.expire.1.OnLine := online.expire.1
  have next := toNat_ly_add_one online
  have above {mode : Mode} (present : video.mode = mode) (other : mode ≠ .vblank) :
      video.mode ≠ .vblank :=
    fun same => other (present.symm.trans same)
  rcases expire_cases video with
    ⟨mode, mode', ly, back, -⟩ | ⟨mode, mode', ly, back, -⟩ | ⟨mode, last, mode', ly, -, -⟩ |
    ⟨mode, more, mode', ly, back, -⟩ | ⟨mode, more, mode', ly, -, -⟩ | ⟨mode, last, mode', ly, -, -⟩
  · refine of_else composed (startsPicture_expire_of_eq ly)
      (endsDrawing_expire_of_ne mode (by decide)) stays ?_ (fun _ => ⟨above mode (by decide), back⟩)
    change video.expire.1.linesDone = video.linesDone
    rw [linesDone, linesDone, mode, mode', ly]
  · have drawn := online.drawn mode (by decide)
    have starts := startsPicture_expire_of_eq ly
    have ends : Moment.endsDrawing ⟨video, .expire⟩ = true := beq_iff_eq.mpr mode
    have before : video.linesDone = video.ly.toNat := by
      rw [linesDone, mode]
    have after : video.expire.1.linesDone = video.ly.toNat + 1 := by
      rw [linesDone, mode', ly]
    refine ⟨stays, ?_, fun _ => ?_⟩
    · rw [drawn_of_endsDrawing past starts ends, List.map_append, composed.lines, before, after,
        List.range_succ]
      rfl
    · have rows := composed.rows (above mode (by decide))
      rw [before] at rows
      rw [drawn_of_endsDrawing past starts ends, List.map_append, ← rows, after, back,
        take_setIfInBounds _ _ _ drawn]
      rfl
  · have ends := (next_eq_vblankLine_iff online).mp last
    refine of_else composed (startsPicture_expire_of_ne (ly ▸ ly_add_one_ne_zero online))
      (endsDrawing_expire_of_ne mode (by decide)) stays ?_ (fun other => absurd mode' other)
    change video.expire.1.linesDone = video.linesDone
    rw [linesDone, linesDone, mode, mode']
    exact ends.symm
  · refine of_else composed (startsPicture_expire_of_ne (ly ▸ ly_add_one_ne_zero online))
      (endsDrawing_expire_of_ne mode (by decide)) stays ?_ (fun _ => ⟨above mode (by decide), back⟩)
    change video.expire.1.linesDone = video.linesDone
    rw [linesDone, linesDone, mode, mode', ly]
    exact next
  · refine of_else composed (startsPicture_expire_of_ne (ly ▸ ly_add_one_ne_zero online))
      (endsDrawing_expire_of_ne mode (by decide)) stays ?_ (fun other => absurd mode' other)
    change video.expire.1.linesDone = video.linesDone
    rw [linesDone, linesDone, mode, mode']
  · have between := online.vblank_iff.mp mode
    refine of_startsPicture ?_ mode' (congrArg UInt8.toNat ly)
    change (video.ly != 0 && video.expire.1.ly == 0) = true
    have positive : video.ly ≠ 0 := by
      intro zero
      rw [zero] at between
      exact absurd between (by decide)
    rw [ly, bne_iff_ne.mpr positive]
    rfl

/-! ## Whole trails -/

theorem Composed.next {past : List Moment} {moment : Moment}
    (composed : Composed past moment.before) : Composed (past ++ [moment]) moment.after := by
  rcases moment with ⟨video, happening⟩
  cases happening with
  | command command => exact composed.command command
  | elapse cycles => exact composed.elapse cycles
  | expire => exact composed.expire

theorem Composed.follows {first last : Video} {earlier past : List Moment}
    (composed : Composed earlier first) (leads : Follows first past last) :
    Composed (earlier ++ past) last := by
  induction leads generalizing earlier with
  | done video =>
      rw [List.append_nil]
      exact composed
  | next moment rest inductionHypothesis =>
      rw [List.append_cons]
      exact inductionHypothesis composed.next

/-! ## What is shown -/

theorem entersVblank_of_ne {moment : Moment} {mode : Mode} (after : moment.after.mode = mode)
    (other : mode ≠ .vblank) : moment.entersVblank = false := by
  rw [Moment.entersVblank, after, beq_eq_false_iff_ne.mpr other, Bool.and_false]

theorem entersVblank_of_eq {moment : Moment} (same : moment.after.mode = moment.before.mode) :
    moment.entersVblank = false := by
  rw [Moment.entersVblank, same]
  exact Bool.not_and_self _

/-- The screen is made white, or the frames take each other's place with the last
line, or what is shown stays. -/
theorem front_cases (moment : Moment) :
    (moment.whitens = true ∧ moment.entersVblank = false ∧
      moment.after.front = whiteFrame ∧ moment.after.back = whiteFrame) ∨
    (moment.whitens = false ∧ moment.entersVblank = true ∧ moment.before.mode = .hblank ∧
      moment.before.ly + 1 = vblankLine ∧ moment.after.front = moment.before.back) ∨
    (moment.whitens = false ∧ moment.entersVblank = false ∧
      moment.after.front = moment.before.front) := by
  rcases moment with ⟨video, happening⟩
  cases happening with
  | command command =>
      rcases apply_cases video command with
        ⟨clears, after⟩ | ⟨clears, control, -, after⟩ | ⟨stays, same, -, -⟩
      · have top : (video.apply command).mode = .oamScan := congrArg Video.mode after
        exact Or.inl ⟨clears, entersVblank_of_ne top (by decide), congrArg front after,
          congrArg back after⟩
      · have top : (video.apply command).mode = .oamScan := congrArg Video.mode after
        exact Or.inl ⟨clears, entersVblank_of_ne top (by decide), congrArg front after,
          congrArg back after⟩
      · exact Or.inr (Or.inr ⟨stays, entersVblank_of_eq same.mode, same.front⟩)
  | elapse cycles =>
      have same := SamePicture.elapse video cycles
      exact Or.inr (Or.inr ⟨rfl, entersVblank_of_eq same.mode, same.front⟩)
  | expire =>
      rcases expire_cases video with
        ⟨-, mode, -, -, front⟩ | ⟨-, mode, -, -, front⟩ | ⟨mode, last, mode', -, -, front⟩ |
        ⟨-, -, mode, -, -, front⟩ | ⟨mode, -, mode', -, -, front⟩ | ⟨-, -, mode, -, -, front⟩
      · exact Or.inr (Or.inr ⟨rfl, entersVblank_of_ne mode (by decide), front⟩)
      · exact Or.inr (Or.inr ⟨rfl, entersVblank_of_ne mode (by decide), front⟩)
      · refine Or.inr (Or.inl ⟨rfl, ?_, mode, last, front⟩)
        change (video.mode != .vblank && video.expire.1.mode == .vblank) = true
        rw [mode, mode']
        rfl
      · exact Or.inr (Or.inr ⟨rfl, entersVblank_of_ne mode (by decide), front⟩)
      · exact Or.inr (Or.inr ⟨rfl, entersVblank_of_eq (mode'.trans mode.symm), front⟩)
      · exact Or.inr (Or.inr ⟨rfl, entersVblank_of_ne mode (by decide), front⟩)

/-- With the last line the frame shown is the one whose lines have been drawn. -/
theorem Composed.shown {past : List Moment} {moment : Moment}
    (composed : Composed past moment.before) (enters : moment.entersVblank = true) :
    (drawn past).map (fun line => line.before.ly.toNat) = List.range 144 ∧
      moment.after.front.toList = (drawn past).map (fun line => line.before.composeLine) := by
  rcases front_cases moment with ⟨-, never, -⟩ | ⟨-, -, mode, last, front⟩ | ⟨-, never, -⟩
  · exact absurd (never.symm.trans enters) Bool.false_ne_true
  · have done : moment.before.linesDone = 144 := by
      rw [linesDone, mode]
      exact (next_eq_vblankLine_iff composed.online).mp last
    have lines := composed.lines
    have rows := composed.rows (by rw [mode]; decide)
    rw [done] at lines rows
    have whole : moment.before.back.toList.length <= 144 := Nat.le_of_eq Vector.length_toList
    rw [List.take_of_length_le whole] at rows
    refine ⟨lines, ?_⟩
    rw [front]
    exact rows
  · exact absurd (never.symm.trans enters) Bool.false_ne_true

theorem frames_of_whitens {moment : Moment} (white : moment.whitens = true) :
    moment.after.front = whiteFrame ∧ moment.after.back = whiteFrame := by
  rcases front_cases moment with ⟨-, -, front, back⟩ | ⟨dark, -⟩ | ⟨dark, -⟩
  · exact ⟨front, back⟩
  · exact absurd (dark.symm.trans white) Bool.false_ne_true
  · exact absurd (dark.symm.trans white) Bool.false_ne_true

theorem front_of_else {moment : Moment} (stays : moment.entersVblank = false)
    (dark : moment.whitens = false) : moment.after.front = moment.before.front := by
  rcases front_cases moment with ⟨white, -⟩ | ⟨-, enters, -⟩ | ⟨-, -, front⟩
  · exact absurd (dark.symm.trans white) Bool.false_ne_true
  · exact absurd (stays.symm.trans enters) Bool.false_ne_true
  · exact front

/-- Whenever a pause between two pictures begins, the picture shown from then on
is the one whose 144 lines were drawn since the last picture began.  In between
it changes only to white, by a reset or with the display. -/
theorem shown_picture_is_current {shades : Shades} {actions : List Action}
    {past later : List Moment} {moment : Moment}
    (split : (initial shades).trail actions = past ++ moment :: later) :
    (Follows (initial shades) past moment.before ∧
      Follows moment.after later ((initial shades).actAll actions)) ∧
    (moment.entersVblank = true ->
      (drawn past).map (fun line => line.before.ly.toNat) = List.range 144 ∧
      moment.after.front.toList = (drawn past).map (fun line => line.before.composeLine)) ∧
    (moment.whitens = true ->
      moment.after.front = whiteFrame ∧ moment.after.back = whiteFrame) ∧
    (moment.entersVblank = false -> moment.whitens = false ->
      moment.after.front = moment.before.front) := by
  have leads := follows_trail (initial shades) actions
  rw [split] at leads
  rcases leads.split with ⟨before, after⟩
  have composed : Composed past moment.before := (composed_initial shades).follows before
  exact ⟨⟨before, after⟩, composed.shown, frames_of_whitens, front_of_else⟩

theorem Follows.exists_entersVblank {first last : Video} {moments : List Moment}
    (leads : Follows first moments last) (begins : first.mode ≠ .vblank)
    (ends : last.mode = .vblank) :
    ∃ past moment later, moments = past ++ moment :: later ∧ moment.entersVblank = true := by
  induction leads with
  | done video => exact False.elim (begins ends)
  | next moment rest inductionHypothesis =>
      by_cases enters : moment.after.mode = .vblank
      · refine ⟨[], moment, _, rfl, ?_⟩
        rw [Moment.entersVblank, enters, bne_iff_ne.mpr begins]
        rfl
      · rcases inductionHypothesis enters ends with ⟨past, found, later, split, entering⟩
        exact ⟨moment :: past, found, later, congrArg (moment :: ·) split, entering⟩

/-- The first picture is shown after 65664 clock cycles. -/
theorem first_picture_is_current :
    ∃ past moment later, (initial .green).trail [.step 65664] = past ++ moment :: later ∧
      moment.entersVblank = true ∧
      (drawn past).map (fun line => line.before.ly.toNat) = List.range 144 ∧
      moment.after.front.toList = (drawn past).map (fun line => line.before.composeLine) := by
  have settled := (settled_initial .green).step 65664
  have place : ((initial .green).step 65664).1.position = 65664 :=
    ((settled_initial .green).online.step rfl 65664).2
  have between : ((initial .green).step 65664).1.mode = .vblank := by
    have within := settled.clock_lt
    have ends := ((initial .green).step 65664).1.modeEnd_le
    rw [position] at place
    exact settled.online.vblank_iff.mpr (by omega)
  have leads := follows_trail (initial .green) [.step 65664]
  have drawing : (initial .green).mode ≠ .vblank := show Mode.oamScan ≠ .vblank by decide
  rcases leads.exists_entersVblank drawing between with ⟨past, moment, later, split, enters⟩
  rcases shown_picture_is_current split with ⟨-, shown, -⟩
  exact ⟨past, moment, later, split, enters, shown enters⟩

end Video

end Dmg
