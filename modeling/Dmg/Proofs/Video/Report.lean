import Dmg.Proofs.Video.Spans

/-!
# The mode as a program reads it

The unit keeps its mode twice: as the state of its cycle, and as a code in the
status register, where programs read it.  Every mode that begins brings the code
up to date.  The display takes the code away when it is switched off, and does not
bring it back when it is switched on again.  So from then on, until the next mode
begins, a program reads the code of the pause behind a line while the unit looks
for the sprites of the first one.

The main result says of every history of the unit whether the code is the right
one.
-/

namespace Dmg

namespace Video

/-- The bits of the status register that hold the code of the mode. -/
def modeMask : UInt8 := 0x03

/-- The code of the mode as a program reads it. -/
def reportedMode (video : Video) : UInt8 :=
  video.readRegister .stat &&& modeMask

/-! ## When there is no code -/

namespace Moment

/-- Whether the display is switched off. -/
def darkens (moment : Moment) : Bool :=
  match moment.happening with
  | .command command => moment.before.darkens command
  | _ => false

/-- Whether a mode begins, with the power or behind another mode. -/
def beginsMode (moment : Moment) : Bool :=
  match moment.happening with
  | .command .reset => true
  | .expire => true
  | _ => false

end Moment

/-- The display has been switched off, and no mode has begun since. -/
def Blanked (past : List Moment) : Prop :=
  ∃ early moment late, past = early ++ moment :: late ∧ moment.darkens = true ∧
    ∀ later ∈ late, later.beginsMode = false

theorem not_blanked_nil : ¬ Blanked [] := by
  rintro ⟨early, moment, late, split, -⟩
  exact List.append_ne_nil_of_right_ne_nil early (List.cons_ne_nil moment late) split.symm

theorem blanked_concat {past : List Moment} {moment : Moment} :
    Blanked (past ++ [moment]) ↔
      moment.darkens = true ∨ Blanked past ∧ moment.beginsMode = false := by
  constructor
  · rintro ⟨early, found, late, split, dark, quiet⟩
    rcases List.eq_nil_or_concat late with rfl | ⟨late, last, rfl⟩
    · rcases List.append_inj' split rfl with ⟨-, same⟩
      cases same
      exact Or.inl dark
    · rw [List.concat_eq_append] at split quiet
      have longer : past ++ [moment] = (early ++ found :: late) ++ [last] := by
        rw [split, List.append_assoc]
        rfl
      rcases List.append_inj' longer rfl with ⟨before, same⟩
      cases same
      refine Or.inr ⟨⟨early, found, late, before, dark, fun later member => ?_⟩, ?_⟩
      · exact quiet later (List.mem_append_left _ member)
      · exact quiet moment (List.mem_append_right _ (List.mem_singleton_self moment))
  · rintro (dark | ⟨⟨early, found, late, rfl, dark, quiet⟩, still⟩)
    · exact ⟨past, moment, [], rfl, dark, fun _ member => nomatch member⟩
    · refine ⟨early, found, late ++ [moment], List.append_assoc .., dark, fun later member => ?_⟩
      rcases List.mem_append.mp member with before | last
      · exact quiet later before
      · rw [List.mem_singleton.mp last]
        exact still

/-! ## The code in the status register -/

theorem and_modeMask_or {first second : UInt8} (none : second &&& modeMask = 0) :
    (first ||| second) &&& modeMask = first &&& modeMask := by
  rw [Bits.and_or_distrib, none, UInt8.or_zero]

theorem and_modeMask_and {first second : UInt8} (all : second &&& modeMask = modeMask) :
    (first &&& second) &&& modeMask = first &&& modeMask := by
  rw [UInt8.and_assoc, all]

theorem reportedMode_eq (video : Video) : video.reportedMode = video.stat &&& modeMask := by
  change (0x80 ||| video.stat) &&& modeMask = _
  rw [UInt8.or_comm, and_modeMask_or rfl]

theorem reportedMode_setMode (video : Video) (mode : Mode) :
    (video.setMode mode).reportedMode = mode.code := by
  have cleared : video.stat &&& 0xFC &&& modeMask = 0 := by
    rw [UInt8.and_assoc]
    exact UInt8.and_zero
  have whole : mode.code &&& modeMask = mode.code := by
    cases mode <;> rfl
  rw [reportedMode_eq]
  change (video.stat &&& 0xFC ||| mode.code) &&& modeMask = mode.code
  rw [Bits.and_or_distrib, cleared, whole, UInt8.zero_or]

theorem reportedMode_initial (shades : Shades) :
    (initial shades).reportedMode = (initial shades).mode.code := by
  rw [reportedMode_eq]
  exact (by decide : Mode.oamScan.code &&& modeMask = Mode.oamScan.code)

theorem comparedStat_and_modeMask (video : Video) :
    video.comparedStat &&& modeMask = video.stat &&& modeMask := by
  rw [comparedStat]
  split
  · exact and_modeMask_or rfl
  · exact and_modeMask_and rfl

/-- A comparison of lines leaves the code alone. -/
theorem reportedMode_thenCompare (changed : Video × UInt8) :
    (thenCompare changed).1.reportedMode = changed.1.reportedMode := by
  rw [thenCompare_eq, reportedMode_eq, reportedMode_eq]
  exact comparedStat_and_modeMask changed.1

theorem reportedMode_elapse (video : Video) (cycles : Nat) :
    (video.elapse cycles).1.reportedMode = video.reportedMode := by
  rw [elapse, compareLine_eq, reportedMode_eq, reportedMode_eq]
  exact comparedStat_and_modeMask video

theorem reportedMode_park (video : Video) : video.park.reportedMode = 0 := by
  rw [reportedMode_eq]
  change video.stat &&& 0xFC &&& modeMask = 0
  rw [UInt8.and_assoc]
  exact UInt8.and_zero

/-- A command that does not put the unit back to the top leaves the code alone. -/
theorem reportedMode_apply {video : Video} {command : Command}
    (stays : video.clears command = false) :
    (video.apply command).reportedMode = video.reportedMode := by
  cases command with
  | reset => cases stays
  | writeVram offset byte => rfl
  | writeOam offset byte => rfl
  | writeRegister register byte =>
      cases register with
      | lcdc =>
          have stored :
              video.apply (.writeRegister .lcdc byte) = { video with control := ⟨byte⟩ } :=
            writeControl_of_not_darkens stays
          rw [stored]
          rfl
      | stat =>
          have kept : ((byte &&& 0x78) ||| (video.stat &&& 0x07)) &&& modeMask =
              video.stat &&& modeMask := by
            rw [UInt8.or_comm, and_modeMask_or, and_modeMask_and rfl]
            rw [UInt8.and_assoc]
            exact UInt8.and_zero
          have compared : video.apply (.writeRegister .stat byte) = _ :=
            congrArg Prod.fst (compareLine_eq _)
          rw [compared, reportedMode_eq, reportedMode_eq, ← kept]
          exact comparedStat_and_modeMask _
      | lyc =>
          have compared : video.apply (.writeRegister .lyc byte) = _ :=
            congrArg Prod.fst (compareLine_eq _)
          rw [compared, reportedMode_eq, reportedMode_eq]
          exact comparedStat_and_modeMask { video with lyc := byte }
      | _ => rfl

/-! ## Histories -/

/-- The code is that of the mode, unless the display has taken it away.  Then the
unit is at the top of a picture. -/
structure Reports (past : List Moment) (video : Video) : Prop where
  current : ¬ Blanked past -> video.reportedMode = video.mode.code
  blank : Blanked past -> video.reportedMode = 0 ∧ video.mode = .oamScan

theorem reports_initial (shades : Shades) : Reports [] (initial shades) :=
  ⟨fun _ => reportedMode_initial shades, fun blanked => absurd blanked not_blanked_nil⟩

/-- Where neither the mode nor its code changes, both stay as right or wrong as they
were. -/
theorem Reports.of_same {past : List Moment} {moment : Moment}
    (reports : Reports past moment.before) (bright : moment.darkens = false)
    (begins : moment.beginsMode = false) (mode : moment.after.mode = moment.before.mode)
    (code : moment.after.reportedMode = moment.before.reportedMode) :
    Reports (past ++ [moment]) moment.after := by
  have same : Blanked (past ++ [moment]) ↔ Blanked past := by
    rw [blanked_concat, bright, begins]
    simp
  refine ⟨fun clear => ?_, fun blanked => ?_⟩
  · rw [mode, code]
    exact reports.current fun blanked => clear (same.mpr blanked)
  · rw [mode, code]
    exact reports.blank (same.mp blanked)

/-- With a mode that begins the code is the right one. -/
theorem Reports.of_beginsMode (past : List Moment) {moment : Moment}
    (bright : moment.darkens = false) (begins : moment.beginsMode = true)
    (code : moment.after.reportedMode = moment.after.mode.code) :
    Reports (past ++ [moment]) moment.after := by
  refine ⟨fun _ => code, fun blanked => ?_⟩
  rw [blanked_concat, bright, begins] at blanked
  simp at blanked

/-- The display takes the code away at the top of a picture. -/
theorem Reports.of_darkens (past : List Moment) {video : Video} {command : Command}
    (dark : video.darkens command = true) :
    Reports (past ++ [⟨video, .command command⟩]) (video.apply command) := by
  have blanked : Blanked (past ++ [⟨video, .command command⟩]) := blanked_concat.mpr (Or.inl dark)
  refine ⟨fun clear => absurd blanked clear, fun _ => ?_⟩
  cases command with
  | writeRegister register byte =>
      cases register with
      | lcdc =>
          have parked : video.apply (.writeRegister .lcdc byte) = _ := writeControl_of_darkens dark
          rw [parked]
          exact ⟨reportedMode_park _, rfl⟩
      | _ => cases dark
  | _ => cases dark

theorem Reports.command {past : List Moment} {video : Video} (reports : Reports past video)
    (command : Command) :
    Reports (past ++ [⟨video, .command command⟩]) (video.apply command) := by
  cases dark : video.darkens command with
  | true => exact of_darkens past dark
  | false =>
      cases command with
      | reset =>
          have begun : video.reset.reportedMode = video.reset.mode.code := by
            rw [reset_eq]
            exact reportedMode_initial video.shades
          exact of_beginsMode past rfl rfl begun
      | writeVram offset byte => exact reports.of_same rfl rfl rfl rfl
      | writeOam offset byte => exact reports.of_same rfl rfl rfl rfl
      | writeRegister register byte =>
          have stays : video.clears (.writeRegister register byte) = false := dark
          rcases apply_cases video (.writeRegister register byte) with
            ⟨clears, -⟩ | ⟨clears, -⟩ | ⟨-, same, -, -⟩
          · exact absurd (stays.symm.trans clears) Bool.false_ne_true
          · exact absurd (stays.symm.trans clears) Bool.false_ne_true
          · exact reports.of_same dark rfl same.mode (reportedMode_apply stays)

/-- A unit whose mode is not that of the top of a picture has the right code. -/
theorem Reports.of_mode {past : List Moment} {video : Video} (reports : Reports past video)
    (mode : video.mode ≠ .oamScan) : video.reportedMode = video.mode.code :=
  reports.current fun blanked => mode (reports.blank blanked).2

/-- The code is right when a mode has ended: the next mode brings it up to date, or
the pause between two pictures goes on to another line. -/
theorem Reports.finishMode {past : List Moment} {video : Video} (reports : Reports past video) :
    video.finishMode.1.reportedMode = video.finishMode.1.mode.code := by
  rcases finishMode_cases video with
    ⟨-, after⟩ | ⟨-, sheet, map, after⟩ | ⟨-, -, after⟩ | ⟨-, -, after⟩ | ⟨mode, -, after⟩ |
    ⟨-, -, after⟩
  · rw [after]
    exact reportedMode_setMode video .drawing
  · rw [after]
    exact reportedMode_setMode video.drawLine .hblank
  · rw [after, reportedMode_thenCompare, thenCompare_eq]
    exact reportedMode_setMode _ .vblank
  · rw [after, reportedMode_thenCompare, thenCompare_eq]
    exact reportedMode_setMode _ .oamScan
  · rw [after, reportedMode_thenCompare, thenCompare_eq]
    exact reports.of_mode (by rw [mode]; decide)
  · rw [after, reportedMode_thenCompare, thenCompare_eq]
    exact reportedMode_setMode _ .oamScan

theorem Reports.expire {past : List Moment} {video : Video} (reports : Reports past video) :
    Reports (past ++ [⟨video, .expire⟩]) video.expire.1 := by
  apply of_beginsMode past rfl rfl
  change video.expire.1.reportedMode = video.expire.1.mode.code
  rw [expire_eq]
  exact reports.finishMode

theorem Reports.next {past : List Moment} {moment : Moment}
    (reports : Reports past moment.before) : Reports (past ++ [moment]) moment.after := by
  rcases moment with ⟨video, happening⟩
  cases happening with
  | command command => exact reports.command command
  | elapse cycles =>
      exact reports.of_same rfl rfl (SamePicture.elapse video cycles).mode
        (reportedMode_elapse video cycles)
  | expire => exact reports.expire

theorem Reports.follows {first last : Video} {earlier past : List Moment}
    (reports : Reports earlier first) (leads : Follows first past last) :
    Reports (earlier ++ past) last := by
  induction leads generalizing earlier with
  | done video =>
      rw [List.append_nil]
      exact reports
  | next moment rest inductionHypothesis =>
      rw [List.append_cons]
      exact inductionHypothesis reports.next

/-- Whatever has been done to the unit, a program reads the code of its mode, except
in one case: the display has been switched off and no mode has begun since.  Then
the unit is at the top of a picture, and the code is that of another mode, whether
or not the display is on again. -/
theorem reportedMode_eq_code_iff (shades : Shades) (actions : List Action) :
    (((initial shades).actAll actions).reportedMode =
        ((initial shades).actAll actions).mode.code ↔
      ¬ Blanked ((initial shades).trail actions)) ∧
    (Blanked ((initial shades).trail actions) ->
      ((initial shades).actAll actions).mode = .oamScan ∧
        ((initial shades).actAll actions).reportedMode = Mode.hblank.code) := by
  have reports : Reports ((initial shades).trail actions) ((initial shades).actAll actions) :=
    (reports_initial shades).follows (follows_trail (initial shades) actions)
  constructor
  · refine ⟨fun right blanked => ?_, reports.current⟩
    rcases reports.blank blanked with ⟨code, mode⟩
    rw [code, mode] at right
    exact absurd right (by decide)
  · intro blanked
    rcases reports.blank blanked with ⟨code, mode⟩
    exact ⟨mode, code⟩

/-- The display is switched off and on again. -/
def offAndOn : List Action :=
  [.command (.writeRegister .lcdc 0x11), .command (.writeRegister .lcdc 0x91)]

/-- The display is on again, and the code is not that of the mode. -/
theorem reportedMode_ne_code_of_offAndOn :
    ((initial .green).actAll offAndOn).control.isOn = true ∧
      ((initial .green).actAll offAndOn).readRegister .stat &&& 0x03 ≠
        ((initial .green).actAll offAndOn).mode.code := by
  decide +kernel

/-- No mode has begun since the display was switched off. -/
theorem offAndOn_is_blanked :
    Blanked ((initial .green).trail offAndOn) ∧
      ((initial .green).actAll offAndOn).mode = .oamScan ∧
      ((initial .green).actAll offAndOn).reportedMode = Mode.hblank.code := by
  have blanked : Blanked ((initial .green).trail offAndOn) := by
    refine ⟨[], _, _, rfl, rfl, fun later member => ?_⟩
    rw [List.mem_singleton.mp member]
    rfl
  exact ⟨blanked, (reportedMode_eq_code_iff .green offAndOn).2 blanked⟩

end Video

end Dmg
