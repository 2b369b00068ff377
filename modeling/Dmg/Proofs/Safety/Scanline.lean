import Dmg.Proofs.Safety.Picture
import Dmg.Video.Scanline

/-!
# Checked lines

A line is composed in the picture that it belongs to: the background first, the
window over it, and the sprites over both, each pixel written where it is found.  A
line of indices is kept beside it, which tells the sprites what is behind them.
Composing has no answer for a line below the screen, so an answer also says that the
line is on it.
-/

namespace Dmg

namespace Video

/-! ## The layers -/

/-- Note the index of a column, and paint it. -/
def plot? (video : Video) (palette : Vector Color 4) (drawn : IndexLine × Frame) (column : Nat)
    (index : ColorIndex) : Option (IndexLine × Frame) := do
  let indices <- Checked.store drawn.1 column index
  let color <- palette[index.val]?
  let picture <- Raster.put? drawn.2 (160 * video.ly.toNat + column) color
  some (indices, picture)

/-- Plot some columns one after the other. -/
def plotAll? (video : Video) (palette : Vector Color 4) (index? : Nat -> Option ColorIndex)
    (columns : List Nat) (drawn : IndexLine × Frame) : Option (IndexLine × Frame) :=
  columns.foldlM (fun drawn column => do
    let index <- index? column
    video.plot? palette drawn column index) drawn

/-- Draw the background, which takes all columns. -/
def drawBackground? (video : Video) (palette : Vector Color 4) (drawn : IndexLine × Frame) :
    Option (IndexLine × Frame) :=
  video.plotAll? palette (fun column =>
    if video.control.backgroundShown then
      video.mapPixel? video.control.backgroundUpperMap (UInt8.ofNat column + video.scx)
        (video.ly + video.scy)
    else some 0) (List.range 160) drawn

/-- Draw the window from its left edge on, which may be left of the screen. -/
def drawWindow? (video : Video) (palette : Vector Color 4) (drawn : IndexLine × Frame) :
    Option (IndexLine × Frame) :=
  if video.control.windowShown && video.wy <= video.ly then do
    let y <- Checked.sub video.ly.toNat video.wy.toNat
    let left <- Checked.signed 32 (video.wx.toNat - 7)
    video.plotAll? palette (fun column => do
      let x <- Checked.signed 32 (column - left)
      video.mapPixel? video.control.windowUpperMap (UInt8.ofInt x) (UInt8.ofNat y))
      (List.range' left.toNat (160 - left.toNat)) drawn
  else some drawn

/-! ## The sprites -/

/-- The column of a sprite's tiles that its column on the screen shows. -/
def sideOf? (sprite : Sprite) (column : Fin 8) : Option Int :=
  if sprite.flipsColumns then Checked.signed 32 (7 - column.val) else some column.val

/-- The row of a sprite's tiles that is so far below its first line. -/
def rowOf? (sprite : Sprite) (height below : Nat) : Option Nat :=
  if sprite.flipsRows then do
    let last <- Checked.sub height 1
    Checked.sub last below
  else some below

/-- Paint one column of a sprite, unless it is beside the screen, transparent, or
hidden. -/
def drawColumn? (video : Video) (indices : IndexLine) (palette : Vector Color 4)
    (sprite : Sprite) (left : Int) (row : Nat) (picture : Frame) (column : Fin 8) :
    Option Frame := do
  let place <- Checked.signed 32 (left + column.val)
  if 0 <= place ∧ place < 160 then
    let side <- sideOf? sprite column
    let tile := (sprite.firstTile video.control.tallSprites).toNat
    let index <- video.tileRows.pixel? (64 * tile + 8 * row + side.toNat)
    let below <- indices[place.toNat]?
    if index = 0 || (sprite.isBehind && below != 0) then some picture
    else
      let color <- palette[index.val]?
      Raster.put? picture (160 * video.ly.toNat + place.toNat) color
  else some picture

/-- Paint a sprite, if it has a row on the line. -/
def drawSprite? (video : Video) (indices : IndexLine) (sprite : Sprite) (picture : Frame) :
    Option Frame := do
  let height := video.control.spriteHeight
  let top <- Checked.signed 32 (sprite.y.toNat - 16)
  let left <- Checked.signed 32 (sprite.x.toNat - 8)
  let bottom <- Checked.signed 32 (top + height)
  if top <= video.ly.toNat ∧ video.ly.toNat < bottom then
    let shown <- Checked.signed 32 (video.ly.toNat - top)
    let row <- rowOf? sprite height shown.toNat
    let palette <-
      video.shades.under? (if sprite.secondPalette then video.obp1 else video.obp0)
    (List.finRange 8).foldlM (video.drawColumn? indices palette sprite left row) picture
  else some picture

def sprite? (video : Video) (entry : Nat) : Option Sprite := do
  let y <- video.oam[4 * entry]?
  let x <- video.oam[4 * entry + 1]?
  let tile <- video.oam[4 * entry + 2]?
  let attributes <- video.oam[4 * entry + 3]?
  some ⟨y, x, tile, attributes⟩

/-- Paint all sprites, the last entry first. -/
def drawSprites? (video : Video) (indices : IndexLine) (picture : Frame) : Option Frame :=
  (List.finRange 40).reverse.foldlM (fun picture entry => do
    let sprite <- video.sprite? entry.val
    video.drawSprite? indices sprite picture) picture

/-- Compose the line that is drawn in its picture, over whatever indices the line
before has left. -/
def drawLine? (video : Video) (kept : IndexLine) : Option (IndexLine × Frame) :=
  if video.ly <= 143 then do
    let palette <- video.shades.under? video.bgp
    let background <- video.drawBackground? palette (kept, video.back)
    let layers <- video.drawWindow? palette background
    if video.control.spritesShown then
      let picture <- video.drawSprites? layers.1 layers.2
      some (layers.1, picture)
    else some layers
  else none

/-- The index that the background gives to a column. -/
def backgroundIndex (video : Video) (column : Nat) : ColorIndex :=
  if video.control.backgroundShown then
    video.mapPixel video.control.backgroundUpperMap (UInt8.ofNat column + video.scx)
      (video.ly + video.scy)
  else 0

/-- The index that the window gives to a column. -/
def windowIndex (video : Video) (column : Nat) : ColorIndex :=
  video.mapPixel video.control.windowUpperMap (UInt8.ofNat (column + 7 - video.wx.toNat))
    (video.ly - video.wy)

theorem layerIndex_eq (video : Video) (column : Nat) :
    video.layerIndex column =
      if video.windowCovers column then video.windowIndex column
      else video.backgroundIndex column :=
  rfl

/-! ## The layers have an answer -/

section Line

variable {video : Video} (onScreen : video.ly.toNat < 144)
include onScreen

theorem plotAll?_eq {index? : Nat -> Option ColorIndex} (index : Nat -> ColorIndex)
    {columns : List Nat}
    (found : ∀ column ∈ columns, column < 160 ∧ index? column = some (index column))
    (palette : Vector Color 4) (indices : IndexLine) (picture : Frame) (line : ColorLine) :
    video.plotAll? palette index? columns
        (indices, picture.setIfInBounds video.ly.toNat line) =
      some (Checked.overwrite indices columns index,
        picture.setIfInBounds video.ly.toNat
          (Checked.overwrite line columns fun column => palette.get (index column))) := by
  induction columns generalizing indices line with
  | nil => rfl
  | cons column columns inductionHypothesis =>
      rcases List.forall_mem_cons.mp found with ⟨⟨beside, first⟩, others⟩
      have color : palette[(index column).val]? = some (palette.get (index column)) :=
        palette.getElem?_eq_getElem _
      have plotted : video.plot? palette
          (indices, picture.setIfInBounds video.ly.toNat line) column (index column) =
        some (indices.setIfInBounds column (index column),
          picture.setIfInBounds video.ly.toNat
            (line.setIfInBounds column (palette.get (index column)))) := by
        rw [plot?, Checked.store_eq beside, color]
        simp only [Option.bind_eq_bind, Option.bind_some, Raster.put?_eq onScreen beside]
      rw [plotAll?, List.foldlM_cons, first, Option.bind_eq_bind, Option.bind_eq_bind,
        Option.bind_some, plotted, Option.bind_some]
      exact inductionHypothesis others _ _

/-- The background takes all columns, so nothing is left of the line before. -/
theorem drawBackground?_eq (palette : Vector Color 4) (indices : IndexLine) (picture : Frame)
    (line : ColorLine) :
    video.drawBackground? palette (indices, picture.setIfInBounds video.ly.toNat line) =
      some (Vector.ofFn fun column => video.backgroundIndex column.val,
        picture.setIfInBounds video.ly.toNat
          ((Vector.ofFn fun column => video.backgroundIndex column.val).map palette.get)) := by
  rw [drawBackground?, plotAll?_eq onScreen video.backgroundIndex, Checked.overwrite_range,
    Checked.overwrite_range, Vector.map_ofFn]
  · rfl
  · intro column member
    refine ⟨List.mem_range.mp member, ?_⟩
    rw [backgroundIndex]
    split
    · exact video.mapPixel?_eq _ _ _
    · rfl

/-- The window lies over the columns that it covers. -/
theorem drawWindow?_eq (palette : Vector Color 4) (picture : Frame) :
    video.drawWindow? palette
        (Vector.ofFn fun column => video.backgroundIndex column.val,
          picture.setIfInBounds video.ly.toNat
            ((Vector.ofFn fun column => video.backgroundIndex column.val).map palette.get)) =
      some (video.indexLine,
        picture.setIfInBounds video.ly.toNat (video.indexLine.map palette.get)) := by
  have wxBound := video.wx.toNat_lt
  rw [drawWindow?]
  split
  · next visible =>
    rcases Bool.and_eq_true_iff.mp visible with ⟨shown, above⟩
    have above := UInt8.le_iff_toNat_le.mp (of_decide_eq_true above)
    have y : UInt8.ofNat (video.ly.toNat - video.wy.toNat) = video.ly - video.wy := by
      rw [← UInt8.toNat_sub_of_le _ _ (UInt8.le_iff_toNat_le.mpr above), UInt8.ofNat_toNat]
    let left : Int := video.wx.toNat - 7
    have covers (column : Fin 160) :
        column.val ∈ List.range' left.toNat (160 - left.toNat) ↔
          video.windowCovers column.val = true := by
      rw [windowCovers, visible, Bool.true_and, decide_eq_true_iff, List.mem_range'_1]
      omega
    have layered : Checked.overwrite (Vector.ofFn fun column => video.backgroundIndex column.val)
        (List.range' left.toNat (160 - left.toNat)) video.windowIndex = video.indexLine := by
      apply Vector.ext
      intro column inside
      rw [Checked.getElem_overwrite _ _ _ inside, indexLine, Vector.getElem_ofFn,
        Vector.getElem_ofFn, layerIndex_eq]
      exact if_congr (covers ⟨column, inside⟩) rfl rfl
    rw [Checked.sub_eq above, Checked.signed_eq (by omega) (by omega)]
    simp only [Option.bind_eq_bind, Option.bind_some, y]
    rw [plotAll?_eq onScreen video.windowIndex, ← Checked.map_overwrite, layered]
    intro column member
    have inside := List.mem_range'_1.mp member
    have x : UInt8.ofInt (column - left) = UInt8.ofNat (column + 7 - video.wx.toNat) := by
      have right : (column : Int) - left = (column + 7 - video.wx.toNat : Nat) := by omega
      rw [right, Checked.ofInt_natCast]
    refine ⟨by omega, ?_⟩
    rw [Checked.signed_eq (by omega) (by omega), Option.bind_some, x]
    exact video.mapPixel?_eq _ _ _
  · next beside =>
    have uncovered (column : Nat) : video.windowCovers column = false := by
      rw [windowCovers, Bool.eq_false_iff.mpr beside, Bool.false_and]
    have same : video.indexLine = Vector.ofFn fun column => video.backgroundIndex column.val := by
      simp only [indexLine, layerIndex_eq, uncovered, Bool.false_eq_true, if_false]
    rw [same]

end Line

/-! ## The sprites have an answer -/

theorem spriteHeight_cases (control : LcdControl) :
    control.spriteHeight = 8 ∨ control.spriteHeight = 16 := by
  rw [LcdControl.spriteHeight]
  split
  · exact Or.inr rfl
  · exact Or.inl rfl

theorem covers_iff (sprite : Sprite) (height line : Nat) :
    sprite.covers height line = true ↔
      sprite.y.toNat <= line + 16 ∧ line + 16 < sprite.y.toNat + height := by
  rw [Sprite.covers, Bool.and_eq_true_iff, decide_eq_true_iff, decide_eq_true_iff]

theorem rowAt_lt {sprite : Sprite} {height line : Nat}
    (covered : sprite.covers height line = true) : sprite.rowAt height line < height := by
  have covered := (covers_iff sprite height line).mp covered
  rw [Sprite.rowAt]
  split <;> omega

theorem sideOf?_eq (sprite : Sprite) (column : Fin 8) :
    sideOf? sprite column = some ((sprite.columnAt column).val : Int) := by
  have bound := column.isLt
  rw [sideOf?, Sprite.columnAt]
  split
  · rw [Checked.signed_eq (by omega) (by omega), Fin.val_rev]
    congr 1
    omega
  · rfl

theorem rowOf?_eq {sprite : Sprite} {height line below : Nat}
    (covered : sprite.covers height line = true) (shown : below + sprite.y.toNat = line + 16) :
    rowOf? sprite height below = some (sprite.rowAt height line) := by
  have ordered := (covers_iff sprite height line).mp covered
  have same : line + 16 - sprite.y.toNat = below := by omega
  rw [rowOf?, Sprite.rowAt, same]
  split
  · rw [Checked.sub_eq (by omega), Option.bind_eq_bind, Option.bind_some,
      Checked.sub_eq (by omega)]
  · rfl

/-- A row of a tall sprite that is not in its first tile is in the tile behind
it. -/
theorem pixel?_sprite {video : Video} {sprite : Sprite} {line : Nat}
    (covered : sprite.covers video.control.spriteHeight line = true) (column : Fin 8) :
    video.tileRows.pixel?
        (64 * (sprite.firstTile video.control.tallSprites).toNat +
          8 * sprite.rowAt video.control.spriteHeight line + (sprite.columnAt column).val) =
      some (video.spriteIndex sprite line column) := by
  have tile := (sprite.firstTile video.control.tallSprites).toNat_lt
  have height := spriteHeight_cases video.control
  have row := rowAt_lt covered
  have inside : (sprite.firstTile video.control.tallSprites).toNat +
      sprite.rowAt video.control.spriteHeight line / 8 < 384 := by
    omega
  have found := video.tileRows.pixel?_eq ⟨_, inside⟩
    ⟨sprite.rowAt video.control.spriteHeight line % 8, Nat.mod_lt _ (by decide)⟩
    (sprite.columnAt column)
  have place : 64 * ((sprite.firstTile video.control.tallSprites).toNat +
        sprite.rowAt video.control.spriteHeight line / 8) +
        8 * (sprite.rowAt video.control.spriteHeight line % 8) =
      64 * (sprite.firstTile video.control.tallSprites).toNat +
        8 * sprite.rowAt video.control.spriteHeight line := by
    omega
  have same : Fin.ofNat 384 ((sprite.firstTile video.control.tallSprites).toNat +
      sprite.rowAt video.control.spriteHeight line / 8) = ⟨_, inside⟩ :=
    Fin.ext (Nat.mod_eq_of_lt inside)
  dsimp only at found
  rw [place] at found
  rw [found, spriteIndex, same]

section Sprites

variable {video : Video} (onScreen : video.ly.toNat < 144)
include onScreen

theorem drawColumn?_eq (indices : IndexLine) (palette : Vector Color 4) {sprite : Sprite}
    (covered : sprite.covers video.control.spriteHeight video.ly.toNat = true) (picture : Frame)
    (line : ColorLine) (column : Fin 8) :
    video.drawColumn? indices palette sprite (sprite.x.toNat - 8)
        (sprite.rowAt video.control.spriteHeight video.ly.toNat)
        (picture.setIfInBounds video.ly.toNat line) column =
      some (picture.setIfInBounds video.ly.toNat
        (video.paintColumn indices palette sprite line column)) := by
  have xBound := sprite.x.toNat_lt
  have columnBound := column.isLt
  rw [drawColumn?, Checked.signed_eq (by omega) (by omega)]
  simp only [Option.bind_eq_bind, Option.bind_some, sideOf?_eq, Int.toNat_natCast,
    pixel?_sprite covered]
  rw [paintColumn]
  by_cases beside : 8 <= sprite.x.toNat + column.val ∧ sprite.x.toNat + column.val < 168
  · have inside : sprite.x.toNat + column.val - 8 < 160 := by omega
    have place : ((sprite.x.toNat : Int) - 8 + column.val).toNat =
        sprite.x.toNat + column.val - 8 := by
      omega
    rw [if_pos (by omega), dif_pos beside, place, getElem?_pos indices _ inside, Option.bind_some]
    dsimp only
    split
    · rfl
    · rw [palette.getElem?_eq_getElem (Fin.isLt _), Option.bind_some,
        Checked.set_eq_setIfInBounds inside]
      exact Raster.put?_eq onScreen inside picture line _
  · rw [if_neg (by omega), dif_neg beside]

theorem drawSprite?_eq (indices : IndexLine) (sprite : Sprite) (picture : Frame)
    (line : ColorLine) :
    video.drawSprite? indices sprite (picture.setIfInBounds video.ly.toNat line) =
      some (picture.setIfInBounds video.ly.toNat (video.paintSprite indices sprite line)) := by
  have xBound := sprite.x.toNat_lt
  have yBound := sprite.y.toNat_lt
  have height := spriteHeight_cases video.control
  have covers := covers_iff sprite video.control.spriteHeight video.ly.toNat
  rw [drawSprite?]
  simp (disch := omega) only [Checked.signed_eq, Option.bind_eq_bind,
    Option.bind_some, Shades.under?_eq]
  rw [paintSprite]
  by_cases covered : sprite.covers video.control.spriteHeight video.ly.toNat = true
  · have ordered := covers.mp covered
    have row : rowOf? sprite video.control.spriteHeight
        ((video.ly.toNat : Int) - (sprite.y.toNat - 16)).toNat =
          some (sprite.rowAt video.control.spriteHeight video.ly.toNat) :=
      rowOf?_eq covered (by omega)
    rw [if_pos (by omega), if_pos covered, row, Option.bind_some]
    exact Checked.foldlM_eq_some (fun line => picture.setIfInBounds video.ly.toNat line)
      (fun _ => True)
      (fun column _ line _ => ⟨drawColumn?_eq onScreen indices _ covered picture line column,
        trivial⟩)
      trivial
  · rw [if_neg, if_neg covered]
    intro ordered
    exact covered (covers.mpr (by omega))

theorem drawSprites?_eq (indices : IndexLine) (picture : Frame) (line : ColorLine) :
    video.drawSprites? indices (picture.setIfInBounds video.ly.toNat line) =
      some (picture.setIfInBounds video.ly.toNat
        (video.sprites.foldr (video.paintSprite indices) line)) := by
  have entry (index : Fin 40) : video.sprite? index.val = some (video.sprite index) := by
    have bound := index.isLt
    rw [sprite?, getElem?_pos video.oam _ (by omega), getElem?_pos video.oam _ (by omega),
      getElem?_pos video.oam _ (by omega), getElem?_pos video.oam _ (by omega)]
    rfl
  rw [sprites, List.foldr_map, List.foldr_eq_foldl_reverse]
  refine Checked.foldlM_eq_some (fun line => picture.setIfInBounds video.ly.toNat line)
    (fun _ => True) (fun index _ line _ => ⟨?_, trivial⟩) trivial
  rw [entry]
  exact drawSprite?_eq onScreen indices (video.sprite index) picture line

/-- On the screen a line can be composed, and it makes no difference what the line
before has left. -/
theorem drawLine?_eq (kept : IndexLine) :
    video.drawLine? kept = some (video.indexLine, video.drawLine.back) := by
  have inside : video.ly <= 143 := UInt8.le_iff_toNat_le.mpr (Nat.le_of_lt_succ onScreen)
  have background := drawBackground?_eq onScreen (video.shades.under video.bgp) kept video.back
    video.back[video.ly.toNat]
  have layers := drawWindow?_eq onScreen (video.shades.under video.bgp) video.back
  rw [Checked.setIfInBounds_self onScreen] at background
  rw [drawLine?, if_pos inside, Shades.under?_eq]
  simp only [Option.bind_eq_bind, Option.bind_some, background, layers,
    drawSprites?_eq onScreen]
  rw [drawLine, composeLine]
  split <;> rfl

end Sprites

end Video

end Dmg
