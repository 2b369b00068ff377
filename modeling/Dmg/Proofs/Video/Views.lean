import Dmg.Proofs.Video.Pictures
import Dmg.Proofs.Video.Pixels

/-!
# The views of video memory and the screen

A picture is drawn line by line, and the views of video memory are composed all at once when
its last line has been drawn.  If nothing that the background is made of changes meanwhile,
the picture is a part of the one view, and this view is put together from tiles of the other
one.

Both go back to one colour for each pixel of the background, which depends on video memory
and on a few registers only.  Time does not change these, so the lines of a picture have the
colours that the view has when it is composed.
-/

namespace Dmg

namespace Video

/-! ## What the background is made of -/

/-- A unit that has only what its background is made of. -/
def scenery (video : Video) : Video :=
  { initial video.shades with
    vram := video.vram
    tileRows := video.tileRows
    control := video.control
    scy := video.scy
    scx := video.scx
    bgp := video.bgp }

/-- The colour of a pixel of the background. -/
def backgroundColor (video : Video) (x y : UInt8) : Color :=
  video.colorOf video.bgp (video.mapPixel video.control.backgroundUpperMap x y)

/-- The colour of a pixel of the picture, when there is nothing but the background. -/
def screenColor (video : Video) (x y : UInt8) : Color :=
  video.backgroundColor (x + video.scx) (y + video.scy)

theorem screenColor_congr {first second : Video} (same : second.scenery = first.scenery)
    (x y : UInt8) : second.screenColor x y = first.screenColor x y := by
  change second.scenery.screenColor x y = first.scenery.screenColor x y
  rw [same]

theorem composeSheet_congr {first second : Video} (same : second.scenery = first.scenery) :
    second.composeSheet = first.composeSheet := by
  change second.scenery.composeSheet = first.scenery.composeSheet
  rw [same]

theorem composeMap_congr {first second : Video} (same : second.scenery = first.scenery) :
    second.composeMap = first.composeMap := by
  change second.scenery.composeMap = first.scenery.composeMap
  rw [same]

theorem scenery_finishMode (video : Video) : video.finishMode.1.scenery = video.scenery := by
  rcases exists_finishMode_eq video with ⟨mode, ly, stat, back, front, sheet, map, after⟩
  rw [after]
  rfl

theorem scenery_expire (video : Video) : video.expire.1.scenery = video.scenery := by
  rw [expire_eq]
  exact scenery_finishMode video

theorem scenery_elapse (video : Video) (cycles : Nat) :
    (video.elapse cycles).1.scenery = video.scenery := by
  rw [elapse, compareLine_eq]
  rfl

theorem get_composeMap (video : Video) (x y : Fin 256) :
    (video.composeMap.get y).get x =
      video.backgroundColor (UInt8.ofNat x.val) (UInt8.ofNat y.val) := by
  change (video.composeMap[y.val])[x.val] = _
  simp only [composeMap, Vector.getElem_ofFn, get_under]
  rfl

theorem get_composeSheet (video : Video) (x : Fin 128) (y : Fin 192) :
    (video.composeSheet.get y).get x =
      video.colorOf video.bgp (video.tileRows.pixel ⟨y.val / 8 * 16 + x.val / 8, by omega⟩
        ⟨y.val % 8, Nat.mod_lt _ (by decide)⟩ ⟨x.val % 8, Nat.mod_lt _ (by decide)⟩) := by
  change (video.composeSheet[y.val])[x.val] = _
  simp only [composeSheet, Vector.getElem_ofFn, get_under]

/-- The display is on and shows the background alone. -/
structure OnlyBackground (control : LcdControl) : Prop where
  isOn : control.isOn = true
  background : control.backgroundShown = true
  window : control.windowShown = false
  sprites : control.spritesShown = false

theorem get_composeLine {video : Video} (only : OnlyBackground video.control) (column : Fin 160) :
    video.composeLine.get column = video.screenColor (UInt8.ofNat column.val) video.ly := by
  have outside : video.windowCovers column.val = false := by
    rw [windowCovers, only.window, Bool.false_and, Bool.false_and]
  rw [composeLine, only.sprites, if_neg Bool.false_ne_true]
  change (Vector.map _ _)[column.val] = _
  rw [Vector.getElem_map, get_under, indexLine, Vector.getElem_ofFn, layerIndex, outside,
    if_neg Bool.false_ne_true, if_pos only.background]
  rfl

/-! ## What is shown -/

/-- The views show what video memory holds. -/
structure Fresh (video : Video) : Prop where
  sheet : video.tileSheet = video.composeSheet
  map : video.backgroundMap = video.composeMap

/-- The picture that is shown is a part of the background. -/
def ShowsBackground (video : Video) : Prop :=
  ∀ (x : Fin 160) (y : Fin 144),
    (video.front.get y).get x = video.screenColor (UInt8.ofNat x.val) (UInt8.ofNat y.val)

theorem Fresh.congr {first second : Video} (fresh : first.Fresh)
    (same : second.scenery = first.scenery) (sheet : second.tileSheet = first.tileSheet)
    (map : second.backgroundMap = first.backgroundMap) : second.Fresh where
  sheet := by rw [sheet, fresh.sheet, composeSheet_congr same]
  map := by rw [map, fresh.map, composeMap_congr same]

theorem ShowsBackground.congr {first second : Video} (shown : first.ShowsBackground)
    (same : second.scenery = first.scenery) (front : second.front = first.front) :
    second.ShowsBackground := by
  intro x y
  rw [front, shown x y, screenColor_congr same]

theorem fresh_refreshViews (video : Video) : video.refreshViews.Fresh := by
  have same : video.refreshViews.scenery = video.scenery := by
    simp only [scenery, refreshViews]
  constructor
  · rw [composeSheet_congr same, refreshViews]
  · rw [composeMap_congr same, refreshViews]

/-- With its last line the views are composed of the picture. -/
theorem fresh_finishMode_of_last {video : Video} (mode : video.mode = .drawing)
    (last : video.ly + 1 = vblankLine) : video.finishMode.1.Fresh := by
  rw [finishMode, mode]
  change (if video.ly + 1 = vblankLine then _ else _ : Video).Fresh
  rw [if_pos last]
  exact fresh_refreshViews _

theorem Fresh.finishMode {video : Video} (fresh : video.Fresh) : video.finishMode.1.Fresh := by
  have same := scenery_finishMode video
  rcases finishMode_cases video with
    ⟨-, after⟩ | ⟨mode, -⟩ | ⟨-, -, after⟩ | ⟨-, -, after⟩ | ⟨-, -, after⟩ | ⟨-, -, after⟩
  · rw [after] at same ⊢
    exact fresh.congr same rfl rfl
  · by_cases last : video.ly + 1 = vblankLine
    · exact fresh_finishMode_of_last mode last
    · have after : video.finishMode.1 = video.drawLine.setMode .hblank := by
        rw [Video.finishMode, mode]
        exact if_neg last
      rw [after] at same ⊢
      exact fresh.congr same rfl rfl
  · rw [after, thenCompare_eq] at same ⊢
    exact fresh.congr same rfl rfl
  · rw [after, thenCompare_eq] at same ⊢
    exact fresh.congr same rfl rfl
  · rw [after, thenCompare_eq] at same ⊢
    exact fresh.congr same rfl rfl
  · rw [after, thenCompare_eq] at same ⊢
    exact fresh.congr same rfl rfl

theorem Fresh.expire {video : Video} (fresh : video.Fresh) : video.expire.1.Fresh := by
  have ended := fresh.finishMode
  rw [expire_eq]
  exact ended.congr rfl rfl rfl

theorem fresh_expire_of_last {video : Video} (mode : video.mode = .drawing)
    (last : video.ly + 1 = vblankLine) : video.expire.1.Fresh := by
  have ended := fresh_finishMode_of_last mode last
  rw [expire_eq]
  exact ended.congr rfl rfl rfl

/-! ## The same background in all pictures -/

/-- The entry of the map at a pixel of the background stands for a tile. -/
def SelectsTile (video : Video) (x y : UInt8) (tile : TileIndex) : Prop :=
  let upper := video.control.backgroundUpperMap
  let number := video.byteAt (mapAddress upper x y) (mapAddress_bounds upper x y)
  dataAddress video.control.plainNumbers number = 0x8000 + 16 * tile.val

/-- The picture that is shown and the views of video memory agree. -/
structure ViewsAgree (video : Video) : Prop where
  /-- The picture is the part of the background that the scroll registers select. -/
  screen : ∀ (x : Fin 160) (y : Fin 144), (video.front.get y).get x =
    (video.backgroundMap.get (Fin.ofNat 256 (y.val + video.scy.toNat))).get
      (Fin.ofNat 256 (x.val + video.scx.toNat))
  /-- The background is put together from the tiles of the sheet, sixteen to a row. -/
  tiles : ∀ x y : Fin 256, ∃ tile : TileIndex,
    video.SelectsTile (UInt8.ofNat x.val) (UInt8.ofNat y.val) tile ∧
      (video.backgroundMap.get y).get x =
        (video.tileSheet.get ⟨8 * (tile.val / 16) + y.val % 8, by omega⟩).get
          ⟨8 * (tile.val % 16) + x.val % 8, by omega⟩
  /-- The sheet has all tiles, in the colours of the background. -/
  sheet : ∀ (tile : TileIndex) (row column : Fin 8),
    (video.tileSheet.get ⟨8 * (tile.val / 16) + row.val, by omega⟩).get
        ⟨8 * (tile.val % 16) + column.val, by omega⟩ =
      video.colorOf video.bgp (video.tileRows.pixel tile row column)

/-- Places of the background go round, as sums of bytes do. -/
theorem ofNat_add_scroll (place : Nat) (scroll : UInt8) :
    UInt8.ofNat (Fin.ofNat 256 (place + scroll.toNat)).val = UInt8.ofNat place + scroll := by
  change UInt8.ofNat ((place + scroll.toNat) % 256) = _
  rw [UInt8.ofNat_mod_size, UInt8.ofNat_add, UInt8.ofNat_toNat]

theorem withinTile_ofNat (place : Fin 256) :
    withinTile (UInt8.ofNat place.val) = ⟨place.val % 8, Nat.mod_lt _ (by decide)⟩ := by
  apply Fin.ext
  change (UInt8.ofNat place.val).toNat % 8 = place.val % 8
  rw [UInt8.toNat_ofNat', Nat.mod_eq_of_lt place.isLt]

/-- The sheet has a tile where its number tells. -/
theorem get_composeSheet_of_tile (video : Video) (tile : TileIndex) (row column : Fin 8) :
    (video.composeSheet.get ⟨8 * (tile.val / 16) + row.val, by omega⟩).get
        ⟨8 * (tile.val % 16) + column.val, by omega⟩ =
      video.colorOf video.bgp (video.tileRows.pixel tile row column) := by
  have number : (8 * (tile.val / 16) + row.val) / 8 * 16 + (8 * (tile.val % 16) + column.val) / 8 =
      tile.val := by
    omega
  have line : (8 * (tile.val / 16) + row.val) % 8 = row.val := by omega
  have place : (8 * (tile.val % 16) + column.val) % 8 = column.val := by omega
  rw [get_composeSheet]
  simp only [number, line, place]

theorem Fresh.viewsAgree {video : Video} (fresh : video.Fresh) (shown : video.ShowsBackground) :
    video.ViewsAgree := by
  refine ⟨fun x y => ?_, fun x y => ?_, fun tile row column => ?_⟩
  · rw [fresh.map, get_composeMap, ofNat_add_scroll, ofNat_add_scroll, shown x y, screenColor]
  · let number := video.mapNumber video.control.backgroundUpperMap (UInt8.ofNat x.val)
      (UInt8.ofNat y.val)
    refine ⟨video.control.tileOfNumber number, ?_, ?_⟩
    · unfold SelectsTile
      dsimp only
      rw [byteAt_mapAddress, dataAddress_eq]
    · have tile := video.get_composeSheet_of_tile (video.control.tileOfNumber number)
        ⟨y.val % 8, Nat.mod_lt _ (by decide)⟩ ⟨x.val % 8, Nat.mod_lt _ (by decide)⟩
      rw [fresh.map, fresh.sheet, tile, get_composeMap, backgroundColor, mapPixel,
        withinTile_ofNat, withinTile_ofNat]
  · rw [fresh.sheet, get_composeSheet_of_tile]

/-! ## A run without stores -/

/-- Whether a command leaves video memory and the registers alone. -/
def Command.isQuiet : Command -> Bool
  | .writeOam _ _ => true
  | .reset | .writeVram _ _ | .writeRegister _ _ => false

/-- Whether an action leaves video memory and the registers alone. -/
def Action.isQuiet : Action -> Bool
  | .command applied => applied.isQuiet
  | .step _ => true

/-- Whether a moment leaves video memory and the registers alone. -/
def Moment.isQuiet (moment : Moment) : Bool :=
  match moment.happening with
  | .command applied => applied.isQuiet
  | .elapse _ | .expire => true

theorem isQuiet_of_mem_trail {video : Video} {actions : List Action}
    (quiet : ∀ action ∈ actions, action.isQuiet = true) :
    ∀ moment ∈ video.trail actions, moment.isQuiet = true := by
  induction actions generalizing video with
  | nil => nofun
  | cons action actions inductionHypothesis =>
      rcases List.forall_mem_cons.mp quiet with ⟨first, others⟩
      refine List.forall_mem_append.mpr ⟨fun moment member => ?_, inductionHypothesis others⟩
      cases action with
      | command command =>
          rw [List.mem_singleton.mp member]
          exact first
      | step cycles =>
          rcases happening_of_mem_step member with passes | ends
          · rw [Moment.isQuiet, passes]
          · rw [Moment.isQuiet, ends]

theorem not_whitens_of_isQuiet {moment : Moment} (quiet : moment.isQuiet = true) :
    moment.whitens = false := by
  rcases moment with ⟨video, happening⟩
  cases happening with
  | elapse | expire => rfl
  | command command =>
      cases command with
      | writeOam => rfl
      | reset | writeVram | writeRegister => cases quiet

theorem scenery_of_isQuiet {moment : Moment} (quiet : moment.isQuiet = true) :
    moment.after.scenery = moment.before.scenery := by
  rcases moment with ⟨video, happening⟩
  cases happening with
  | elapse cycles => exact scenery_elapse video cycles
  | expire => exact scenery_expire video
  | command command =>
      cases command with
      | writeOam => rfl
      | reset | writeVram | writeRegister => cases quiet

theorem Fresh.of_isQuiet {moment : Moment} (fresh : moment.before.Fresh)
    (quiet : moment.isQuiet = true) : moment.after.Fresh := by
  rcases moment with ⟨video, happening⟩
  cases happening with
  | elapse cycles =>
      change (video.elapse cycles).1.Fresh
      rw [elapse, compareLine_eq]
      exact fresh.congr rfl rfl rfl
  | expire => exact fresh.expire
  | command command =>
      cases command with
      | writeOam => exact fresh.congr rfl rfl rfl
      | reset | writeVram | writeRegister => cases quiet

/-! ## What a run shows -/

theorem mem_of_mem_drawn {past : List Moment} {line : Moment} (member : line ∈ drawn past) :
    line ∈ past := by
  have since := List.mem_reverse.mp (List.mem_filter.mp member).1
  exact List.mem_reverse.mp ((List.takeWhile_sublist _).subset since)

theorem onlyBackground_congr {first second : Video} (only : OnlyBackground first.control)
    (same : second.scenery = first.scenery) : OnlyBackground second.control := by
  have control : second.control = first.control := (congrArg Video.control same :)
  rw [control]
  exact only

/-- A picture whose lines were all drawn with the background of now shows it. -/
theorem showsBackground_of_drawn {past : List Moment} {video : Video}
    (only : OnlyBackground video.control)
    (same : ∀ line ∈ past, line.before.scenery = video.scenery)
    (lines : (drawn past).map (fun line => line.before.ly.toNat) = List.range 144)
    (rows : video.front.toList = (drawn past).map (fun line => line.before.composeLine)) :
    video.ShowsBackground := by
  intro x y
  have count : (drawn past).length = 144 := by
    rw [← List.length_map, lines, List.length_range]
  have inside : y.val < (drawn past).length := by
    rw [count]
    exact y.isLt
  let line := (drawn past)[y.val]
  have like : line.before.scenery = video.scenery :=
    same line (mem_of_mem_drawn (List.getElem_mem inside))
  have place : line.before.ly.toNat = y.val := by
    have found := List.getElem_of_eq lines (by rw [List.length_map]; exact inside)
    rwa [List.getElem_map, List.getElem_range] at found
  have row : video.front.get y = line.before.composeLine := by
    have found := List.getElem_of_eq rows (by rw [Vector.length_toList]; exact y.isLt)
    rwa [List.getElem_map, Vector.getElem_toList] at found
  rw [row, get_composeLine (onlyBackground_congr only like), screenColor_congr like, ← place,
    UInt8.ofNat_toNat]

/-- The views are composed with the line that completes a picture. -/
theorem fresh_expire {video : Video} (online : video.OnLine) (undone : video.linesDone ≠ 144)
    (done : video.expire.1.linesDone = 144) : video.expire.1.Fresh := by
  have next := toNat_ly_add_one online
  have between := online.vblank_iff
  rcases expire_cases video with
    ⟨mode, mode', ly, -⟩ | ⟨mode, mode', ly, -⟩ | ⟨mode, last, -⟩ | ⟨mode, more, mode', ly, -⟩ |
    ⟨mode, -⟩ | ⟨mode, -, mode', ly, -⟩
  · rw [linesDone, mode', ly] at done
    rw [linesDone, mode] at undone
    exact absurd done undone
  · rw [linesDone, mode', ly] at done
    exact fresh_expire_of_last mode ((next_eq_vblankLine_iff online).mpr done)
  · rw [linesDone, mode] at undone
    exact absurd ((next_eq_vblankLine_iff online).mp last) undone
  · rw [linesDone, mode', ly, next] at done
    exact absurd ((next_eq_vblankLine_iff online).mpr done) more
  · rw [linesDone, mode] at undone
    exact absurd rfl undone
  · rw [linesDone, mode', ly] at done
    cases done

/-- A run in which the background stays the same.  Once a picture is complete the views are
those of now, and once one has been shown it is that of now too. -/
structure Current (past : List Moment) (video : Video) : Prop where
  composed : Composed past video
  only : OnlyBackground video.control
  scenery : ∀ moment ∈ past, moment.before.scenery = video.scenery
  views : video.linesDone = 144 -> video.Fresh
  shown : (∃ moment ∈ past, moment.entersVblank = true) -> video.Fresh ∧ video.ShowsBackground

theorem current_of_top {video : Video} (only : OnlyBackground video.control)
    (mode : video.mode = .oamScan) (top : video.ly = 0) : Current [] video := by
  have none : video.linesDone = 0 := by
    rw [linesDone, mode, top]
    rfl
  have online : video.OnLine := OnLine.of_drawn (by rw [mode]; decide) (by rw [top]; decide)
  refine ⟨⟨online, ?_, fun _ => ?_⟩, only, ?_, fun done => ?_, ?_⟩
  · rw [none]
    rfl
  · rw [none]
    rfl
  · intro moment member
    cases member
  · rw [none] at done
    cases done
  · rintro ⟨moment, member, -⟩
    cases member

theorem Current.views_next {past : List Moment} {moment : Moment}
    (current : Current past moment.before) (quiet : moment.isQuiet = true)
    (done : moment.after.linesDone = 144) : moment.after.Fresh := by
  by_cases before : moment.before.linesDone = 144
  · exact (current.views before).of_isQuiet quiet
  · rcases moment with ⟨video, happening⟩
    cases happening with
    | expire => exact fresh_expire current.composed.online before done
    | elapse cycles =>
        exact absurd ((linesDone_of_samePicture (SamePicture.elapse video cycles)).symm.trans done)
          before
    | command command =>
        cases command with
        | writeOam => exact absurd done before
        | reset | writeVram | writeRegister => cases quiet

/-- Either the picture is shown from now on, or it is one from before that stays. -/
theorem Current.next {past : List Moment} {moment : Moment}
    (current : Current past moment.before) (quiet : moment.isQuiet = true) :
    Current (past ++ [moment]) moment.after := by
  have same := scenery_of_isQuiet quiet
  have only := onlyBackground_congr current.only same
  have before (earlier : Moment) (member : earlier ∈ past) :
      earlier.before.scenery = moment.after.scenery :=
    (current.scenery earlier member).trans same.symm
  refine ⟨current.composed.next, only, ?_, current.views_next quiet, ?_⟩
  · simp only [List.forall_mem_append, List.forall_mem_singleton]
    exact ⟨before, same.symm⟩
  · rintro ⟨found, member, enters⟩
    by_cases now : moment.entersVblank = true
    · rcases current.composed.shown now with ⟨lines, rows⟩
      have between : moment.after.mode = .vblank := by
        rw [Moment.entersVblank, Bool.and_eq_true, beq_iff_eq] at now
        exact now.2
      refine ⟨current.views_next quiet ?_, showsBackground_of_drawn only before lines rows⟩
      rw [linesDone, between]
    · have earlier : found ∈ past := by
        rcases List.mem_append.mp member with earlier | last
        · exact earlier
        · rw [List.mem_singleton.mp last] at enters
          exact absurd enters now
      rcases current.shown ⟨found, earlier, enters⟩ with ⟨fresh, shown⟩
      exact ⟨fresh.of_isQuiet quiet, shown.congr same
        (front_of_else (Bool.eq_false_iff.mpr now) (not_whitens_of_isQuiet quiet))⟩

theorem Current.follows {first last : Video} {earlier past : List Moment}
    (current : Current earlier first) (leads : Follows first past last)
    (quiet : ∀ moment ∈ past, moment.isQuiet = true) : Current (earlier ++ past) last := by
  induction leads generalizing earlier with
  | done video =>
      rw [List.append_nil]
      exact current
  | next moment rest inductionHypothesis =>
      rcases List.forall_mem_cons.mp quiet with ⟨one, others⟩
      rw [List.append_cons]
      exact inductionHypothesis (current.next one) others

theorem Follows.scenery_eq {first last : Video} {moments : List Moment}
    (leads : Follows first moments last) (quiet : ∀ moment ∈ moments, moment.isQuiet = true) :
    last.scenery = first.scenery := by
  induction leads with
  | done video => rfl
  | next moment rest inductionHypothesis =>
      rcases List.forall_mem_cons.mp quiet with ⟨one, others⟩
      exact (inductionHypothesis others).trans (scenery_of_isQuiet one)

/-- From the top of a picture it takes 65664 clock cycles until one is shown. -/
theorem entersVblank_iff {video : Video} {actions : List Action}
    (on : video.control.isOn = true) (mode : video.mode = .oamScan) (top : video.ly = 0)
    (quiet : ∀ action ∈ actions, action.isQuiet = true) (within : video.clock < 80) :
    (∃ moment ∈ video.trail actions, moment.entersVblank = true) ↔
      65664 <= video.clock + elapsed actions := by
  have settled : video.Settled := by
    refine ⟨OnLine.of_drawn (by rw [mode]; decide) (by rw [top]; decide), ?_, fun off => ?_⟩
    · rw [mode]
      exact within
    · rw [on] at off
      cases off
  have place : video.position = video.clock := by
    rw [position, modeStart, mode, top]
    exact Nat.zero_add _
  have spans := settled.spans_trail on fun moment member =>
    not_whitens_of_isQuiet (isQuiet_of_mem_trail quiet moment member)
  have shown := spans.shown
  rw [place, picturesUntil, picturesUntil, picturesShown] at shown
  rw [← List.countP_pos_iff]
  omega

/-- While the background alone is shown, and nothing is stored in video memory or in a
register, the screen and the views agree from the end of the first whole picture on.  They
do so whatever sizes the spans of time have, and that end is reached 65664 clock cycles
behind the top. -/
theorem views_agree_with_screen {video : Video} {actions : List Action}
    (only : OnlyBackground video.control) (mode : video.mode = .oamScan) (top : video.ly = 0)
    (quiet : ∀ action ∈ actions, action.isQuiet = true) :
    (video.clock < Mode.oamScan.duration ->
      ((∃ moment ∈ video.trail actions, moment.entersVblank = true) ↔
        65664 <= video.clock + elapsed actions)) ∧
    ((∃ moment ∈ video.trail actions, moment.entersVblank = true) ->
      (video.actAll actions).scenery = video.scenery ∧ (video.actAll actions).ViewsAgree) := by
  have leads := follows_trail video actions
  have silent : ∀ moment ∈ video.trail actions, moment.isQuiet = true :=
    isQuiet_of_mem_trail quiet
  refine ⟨entersVblank_iff only.isOn mode top quiet, fun entered => ⟨leads.scenery_eq silent, ?_⟩⟩
  have current := (current_of_top only mode top).follows leads silent
  rw [List.nil_append] at current
  rcases current.shown entered with ⟨fresh, shown⟩
  exact fresh.viewsAgree shown

/-- A unit with one dark tile in the second row and the second column of its background,
scrolled so that the tile is inside the screen. -/
def scrolled : Video :=
  (initial .green).actAll
    [.command (.writeVram ⟨0x0020, by decide⟩ 0xFF), .command (.writeVram ⟨0x1821, by decide⟩ 0x02),
      .command (.writeRegister .scx 0xF8), .command (.writeRegister .scy 0xF0)]

/-- Two spans of time with a store in sprite memory between them. -/
def wholePicture : List Action :=
  [.step 30000, .command (.writeOam (Fin.last 159) 16), .step 40000]

/-- The screen agrees with the views although the spans end in the middle of lines. -/
theorem scrolled_views_agree :
    65664 <= scrolled.clock + elapsed wholePicture ∧
      (scrolled.actAll wholePicture).scenery = scrolled.scenery ∧
      (scrolled.actAll wholePicture).ViewsAgree := by
  have only : OnlyBackground scrolled.control := ⟨rfl, rfl, rfl, rfl⟩
  have quiet : ∀ action ∈ wholePicture, action.isQuiet = true := by
    simp [wholePicture, Action.isQuiet, Command.isQuiet]
  have long : 65664 <= scrolled.clock + elapsed wholePicture := by decide
  rcases views_agree_with_screen only rfl rfl quiet with ⟨entered, agree⟩
  exact ⟨long, agree ((entered (by decide)).mpr long)⟩

end Video

end Dmg
