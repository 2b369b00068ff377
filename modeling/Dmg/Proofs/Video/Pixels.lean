import Dmg.Proofs.Safety.Scanline
import Dmg.Proofs.Video.Tiles

/-!
# Pixels

What a pixel of the screen shows can be told from the memory and the registers of the
video unit alone: the window or the background gives it an index, and of the sprites that
show something there the first entry of sprite memory wins.  Nothing that lies elsewhere
on the line has a part in it.

A line is composed in quite another way.  It is painted layer by layer, with pixels from
decoded tiles, and what is painted later hides what was there.  That both ways agree rests
on the order of the painting, which ends with the entry that the other way looks for
first.
-/

namespace Dmg

namespace Sprite

/-- A sprite of the given height lies over a pixel. -/
def LiesOver (sprite : Sprite) (height line column : Nat) : Prop :=
  let top : Int := sprite.y.toNat - 16
  let left : Int := sprite.x.toNat - 8
  top <= line ∧ line < top + height ∧ left <= column ∧ column < left + 8

instance (sprite : Sprite) (height line column : Nat) :
    Decidable (sprite.LiesOver height line column) :=
  inferInstanceAs (Decidable (_ ∧ _))

theorem liesOver_iff (sprite : Sprite) (height line column : Nat) :
    sprite.LiesOver height line column ↔
      sprite.covers height line = true ∧ sprite.x.toNat <= column + 8 ∧
        column < sprite.x.toNat := by
  rw [Video.covers_iff]
  unfold LiesOver
  omega

end Sprite

namespace Video

/-! ## What memory gives a pixel -/

/-- The byte of video memory at an address. -/
def byteAt (video : Video) (address : Nat) (inside : 0x8000 <= address ∧ address < 0xA000) :
    UInt8 :=
  have offset : address - 0x8000 < 0x2000 := by omega
  video.vram[address - 0x8000]

theorem byteAt_eq (video : Video) {address place : Nat} (within : place < 0x2000)
    (inside : 0x8000 <= address ∧ address < 0xA000) (same : address = 0x8000 + place) :
    video.byteAt address inside = video.vram[place] := by
  have offset : address - 0x8000 = place := by omega
  unfold byteAt
  simp only [offset]

/-- The index that the two bytes of a row give to a column: the first has its low bit and
the second its high bit, and the leftmost column has the highest bit of each. -/
def rowIndex (video : Video) (address : Nat) (inside : 0x8000 <= address ∧ address + 1 < 0xA000)
    (column : Fin 8) : ColorIndex :=
  let low := video.byteAt address (by omega)
  let high := video.byteAt (address + 1) (by omega)
  ⟨low.toNat / 2 ^ (7 - column.val) % 2 + 2 * (high.toNat / 2 ^ (7 - column.val) % 2), by omega⟩

/-- Where a map has the number of the tile at a pixel. -/
def mapAddress (upper : Bool) (x y : UInt8) : Nat :=
  (if upper then 0x9C00 else 0x9800) + 32 * (y.toNat / 8) + x.toNat / 8

/-- Where the tile with a number in a map begins. -/
def dataAddress (plain : Bool) (number : UInt8) : Nat :=
  if plain then 0x8000 + 16 * number.toNat
  else (0x9000 + 16 * Displacement.toInt number).toNat

theorem mapAddress_bounds (upper : Bool) (x y : UInt8) :
    0x8000 <= mapAddress upper x y ∧ mapAddress upper x y < 0xA000 := by
  have xBound := x.toNat_lt
  have yBound := y.toNat_lt
  unfold mapAddress
  split <;> omega

theorem dataAddress_eq (control : LcdControl) (number : UInt8) :
    dataAddress control.plainNumbers number = 0x8000 + 16 * (control.tileOfNumber number).val := by
  have bound := number.toNat_lt
  have half : number < 128 ↔ number.toNat < 128 := UInt8.lt_iff_toNat_lt
  have other : 127 < number ↔ 127 < number.toNat := UInt8.lt_iff_toNat_lt
  rw [← LcdControl.tileNumber_eq]
  unfold dataAddress LcdControl.tileNumber Displacement.toInt
  cases control.plainNumbers with
  | true => rfl
  | false =>
      simp only [Bool.false_eq_true, if_false, Bool.false_or, decide_eq_true_eq, half, other]
      split <;> split <;> omega

theorem dataAddress_bounds (control : LcdControl) (number : UInt8) :
    0x8000 <= dataAddress control.plainNumbers number ∧
      dataAddress control.plainNumbers number + 15 < 0x9800 := by
  have tile := (control.tileOfNumber number).isLt
  rw [dataAddress_eq]
  omega

theorem byteAt_mapAddress (video : Video) (upper : Bool) (x y : UInt8) :
    video.byteAt (mapAddress upper x y) (mapAddress_bounds upper x y) =
      video.mapNumber upper x y := by
  have xBound := x.toNat_lt
  have yBound := y.toNat_lt
  have inside : mapOffset upper + y.toNat / 8 * 32 + x.toNat / 8 < 0x2000 := by
    cases upper <;> simp only [mapOffset, Bool.false_eq_true, if_false, if_true] <;> omega
  have place : mapAddress upper x y =
      0x8000 + (mapOffset upper + y.toNat / 8 * 32 + x.toNat / 8) := by
    unfold mapAddress mapOffset
    split <;> omega
  exact byteAt_eq video inside _ place

/-- The index that a map gives to a pixel of its 256 by 256. -/
def mapIndex (video : Video) (upper : Bool) (x y : UInt8) : ColorIndex :=
  let number := video.byteAt (mapAddress upper x y) (mapAddress_bounds upper x y)
  have bounds := dataAddress_bounds video.control number
  video.rowIndex (dataAddress video.control.plainNumbers number + 2 * (y.toNat % 8)) (by omega)
    (withinTile x)

/-- The index of a pixel of the line that is drawn, below the sprites. -/
def layerAt (video : Video) (column : Nat) : ColorIndex :=
  let left : Int := video.wx.toNat - 7
  if video.control.windowShown = true ∧ video.wy <= video.ly ∧ left <= column then
    video.mapIndex video.control.windowUpperMap (UInt8.ofInt (column - left))
      (UInt8.ofNat (video.ly.toNat - video.wy.toNat))
  else if video.control.backgroundShown then
    video.mapIndex video.control.backgroundUpperMap (UInt8.ofNat (column + video.scx.toNat))
      (UInt8.ofNat (video.ly.toNat + video.scy.toNat))
  else 0

theorem spriteRow_bounds {video : Video} {sprite : Sprite} {column : Nat}
    (lies : sprite.LiesOver video.control.spriteHeight video.ly.toNat column) :
    16 * (sprite.firstTile video.control.tallSprites).toNat +
      2 * sprite.rowAt video.control.spriteHeight video.ly.toNat + 1 < 0x2000 := by
  have tile := (sprite.firstTile video.control.tallSprites).toNat_lt
  have row := rowAt_lt ((sprite.liesOver_iff _ _ _).mp lies).1
  have height := spriteHeight_cases video.control
  omega

/-- The index that a sprite has at a pixel of the line that is drawn.  Beside the sprite it
is zero, like that of a pixel of the sprite that lets through what is below it. -/
def spriteAt (video : Video) (sprite : Sprite) (column : Nat) : ColorIndex :=
  if lies : sprite.LiesOver video.control.spriteHeight video.ly.toNat column then
    have row := spriteRow_bounds lies
    have beside := (sprite.liesOver_iff _ _ _).mp lies
    video.rowIndex
      (0x8000 + (16 * (sprite.firstTile video.control.tallSprites).toNat +
        2 * sprite.rowAt video.control.spriteHeight video.ly.toNat))
      (by omega) (sprite.columnAt ⟨column + 8 - sprite.x.toNat, by omega⟩)
  else 0

/-- A sprite is seen at a pixel where it has an index and, if it is behind the
background, the background has none. -/
def IsSeen (video : Video) (column : Nat) (sprite : Sprite) : Prop :=
  video.spriteAt sprite column ≠ 0 ∧ (sprite.isBehind = true -> video.layerAt column = 0)

instance (video : Video) (column : Nat) (sprite : Sprite) :
    Decidable (video.IsSeen column sprite) :=
  inferInstanceAs (Decidable (_ ∧ _))

/-- The colour that a palette register gives to an index. -/
def colorOf (video : Video) (register : UInt8) (index : ColorIndex) : Color :=
  video.shades.get (Shades.select register index)

/-- The register with the palette of a sprite. -/
def paletteOf (video : Video) (sprite : Sprite) : UInt8 :=
  if sprite.secondPalette then video.obp1 else video.obp0

/-- The sprites that are shown at all, in the order of their entries. -/
def shownSprites (video : Video) : List Sprite :=
  if video.control.spritesShown then video.sprites else []

/-- The colour of a pixel of the line that is drawn. -/
def pixelAt (video : Video) (column : Nat) : Color :=
  match video.shownSprites.find? fun sprite => decide (video.IsSeen column sprite) with
  | some sprite => video.colorOf (video.paletteOf sprite) (video.spriteAt sprite column)
  | none => video.colorOf video.bgp (video.layerAt column)

/-- A sprite that is not seen is transparent or hidden. -/
theorem hidden_iff (video : Video) (sprite : Sprite) (column : Nat) :
    (decide (video.spriteAt sprite column = 0) ||
        (sprite.isBehind && video.layerAt column != 0)) = true ↔
      ¬video.IsSeen column sprite := by
  unfold IsSeen
  rw [Bool.or_eq_true, Bool.and_eq_true, decide_eq_true_iff, bne_iff_ne, not_and_or, not_not,
    Classical.not_imp]

theorem get_under (video : Video) (register : UInt8) (index : ColorIndex) :
    (video.shades.under register).get index = video.colorOf register index := by
  change (Vector.ofFn _)[index.val] = _
  rw [Vector.getElem_ofFn]
  rfl

/-! ## Decoded tiles -/

section Layers

variable {video : Video} (reached : video.Reached)
include reached

theorem rowIndex_eq (tile : TileIndex) (row column : Fin 8) {address : Nat}
    (place : address = 0x8000 + (16 * tile.val + 2 * row.val))
    (inside : 0x8000 <= address ∧ address + 1 < 0xA000) :
    video.rowIndex address inside column = video.tileRows.pixel tile row column := by
  have within : 16 * tile.val + 2 * row.val + 1 < 0x2000 := by omega
  have low := byteAt_eq video (Nat.lt_of_succ_lt within) (by omega) place
  have high := byteAt_eq video within (by omega) (congrArg Nat.succ place)
  apply Fin.ext
  rw [pixels_mirror_memory reached, ← low, ← high]
  rfl

theorem mapIndex_eq (upper : Bool) (x y : UInt8) :
    video.mapIndex upper x y = video.mapPixel upper x y := by
  unfold mapIndex mapPixel
  apply rowIndex_eq reached
  rw [byteAt_mapAddress, dataAddress_eq, Nat.add_assoc]
  rfl

theorem layerAt_eq (column : Nat) : video.layerAt column = video.layerIndex column := by
  have left : (video.wx.toNat : Int) - 7 <= column ↔ video.wx.toNat <= column + 7 := by omega
  have covers : (video.control.windowShown = true ∧ video.wy <= video.ly ∧
      (video.wx.toNat : Int) - 7 <= column) ↔ video.windowCovers column = true := by
    rw [windowCovers, Bool.and_eq_true_iff, Bool.and_eq_true_iff, decide_eq_true_iff,
      decide_eq_true_iff, and_assoc, left]
  unfold layerAt layerIndex
  simp only [covers, mapIndex_eq reached]
  split
  · next window =>
    rcases covers.mpr window with ⟨-, below, right⟩
    have x : UInt8.ofInt (column - (video.wx.toNat - 7)) =
        UInt8.ofNat (column + 7 - video.wx.toNat) := by
      rw [← Checked.ofInt_natCast]
      congr 1
      omega
    have y : UInt8.ofNat (video.ly.toNat - video.wy.toNat) = video.ly - video.wy := by
      rw [← UInt8.toNat_sub_of_le _ _ below, UInt8.ofNat_toNat]
    rw [x, y]
  · rw [UInt8.ofNat_add, UInt8.ofNat_add, UInt8.ofNat_toNat, UInt8.ofNat_toNat, UInt8.ofNat_toNat]

end Layers

/-! ## Painted sprites -/

section Sprites

variable {video : Video} (reached : video.Reached) {sprite : Sprite}
  (covered : sprite.covers video.control.spriteHeight video.ly.toNat = true)
include reached covered

theorem spriteAt_eq {column : Nat} {side : Fin 8} (place : sprite.x.toNat + side.val = column + 8) :
    video.spriteAt sprite column = video.spriteIndex sprite video.ly.toNat side := by
  have tile := (sprite.firstTile video.control.tallSprites).toNat_lt
  have row := rowAt_lt covered
  have height := spriteHeight_cases video.control
  have lies : sprite.LiesOver video.control.spriteHeight video.ly.toNat column := by
    rw [Sprite.liesOver_iff]
    exact ⟨covered, by omega, by omega⟩
  have same : (⟨column + 8 - sprite.x.toNat, by omega⟩ : Fin 8) = side := by
    apply Fin.ext
    dsimp only
    omega
  have inside : (sprite.firstTile video.control.tallSprites).toNat +
      sprite.rowAt video.control.spriteHeight video.ly.toNat / 8 < 384 := by
    omega
  rw [spriteAt, dif_pos lies]
  simp only [same]
  apply rowIndex_eq reached
  rw [Fin.val_ofNat, Nat.mod_eq_of_lt inside]
  dsimp only
  omega

theorem paintColumn_eq (colors : ColorLine) {side : Fin 8} {column : Nat}
    (here : sprite.x.toNat + side.val = column + 8) (beside : column < 160) :
    video.paintColumn video.indexLine (video.shades.under (video.paletteOf sprite)) sprite colors
        side =
      if video.IsSeen column sprite then
        colors.set column (video.colorOf (video.paletteOf sprite) (video.spriteAt sprite column))
      else colors := by
  have place : sprite.x.toNat + side.val - 8 = column := by omega
  have below : video.indexLine[column] = video.layerAt column := by
    rw [indexLine, Vector.getElem_ofFn, layerAt_eq reached]
  rw [paintColumn, dif_pos (by omega)]
  simp only [place, below, get_under, ← spriteAt_eq reached covered here, hidden_iff, ite_not]

/-- A column of the sprite's tiles is painted at no more than one place. -/
theorem getElem_paintColumn (colors : ColorLine) (side : Fin 8) {column : Nat}
    (beside : column < 160) :
    (video.paintColumn video.indexLine (video.shades.under (video.paletteOf sprite)) sprite colors
        side)[column] =
      if sprite.x.toNat + side.val = column + 8 ∧ video.IsSeen column sprite then
        video.colorOf (video.paletteOf sprite) (video.spriteAt sprite column)
      else colors[column] := by
  by_cases here : sprite.x.toNat + side.val = column + 8
  · rw [paintColumn_eq reached covered colors here beside]
    by_cases seen : video.IsSeen column sprite
    · simp only [seen, here, and_self, if_true, Vector.getElem_set_self]
    · simp only [seen, and_false, if_false]
  · rw [if_neg fun painted => here painted.1, paintColumn]
    split
    · dsimp only
      split
      · rfl
      · rw [Vector.getElem_set_ne]
        omega
    · rfl

/-- A sprite that covers the line is painted where it is seen. -/
theorem getElem_paintColumns (colors : ColorLine) (sides : List (Fin 8)) {column : Nat}
    (beside : column < 160) :
    (sides.foldl (video.paintColumn video.indexLine (video.shades.under (video.paletteOf sprite))
        sprite) colors)[column] =
      if (sides.any fun side => sprite.x.toNat + side.val == column + 8) = true ∧
          video.IsSeen column sprite then
        video.colorOf (video.paletteOf sprite) (video.spriteAt sprite column)
      else colors[column] := by
  induction sides generalizing colors with
  | nil =>
      rw [if_neg]
      · rfl
      · rintro ⟨found, -⟩
        cases found
  | cons first sides inductionHypothesis =>
      rw [List.foldl_cons, inductionHypothesis,
        getElem_paintColumn reached covered colors first beside]
      simp only [List.any_cons, Bool.or_eq_true, beq_iff_eq]
      by_cases seen : video.IsSeen column sprite
      · simp only [seen, and_true]
        by_cases later : (sides.any fun side => sprite.x.toNat + side.val == column + 8) = true
        · rw [if_pos later, if_pos (Or.inr later)]
        · simp only [later, or_false, if_false, Bool.false_eq_true]
      · simp only [seen, and_false, if_false]

end Sprites

section Lines

variable {video : Video} (reached : video.Reached)
include reached

theorem getElem_paintSprite (sprite : Sprite) (colors : ColorLine) {column : Nat}
    (beside : column < 160) :
    (video.paintSprite video.indexLine sprite colors)[column] =
      if video.IsSeen column sprite then
        video.colorOf (video.paletteOf sprite) (video.spriteAt sprite column)
      else colors[column] := by
  have lies (seen : video.IsSeen column sprite) :
      sprite.LiesOver video.control.spriteHeight video.ly.toNat column := by
    by_contra beside
    exact seen.1 (dif_neg beside)
  rw [paintSprite]
  by_cases covered : sprite.covers video.control.spriteHeight video.ly.toNat = true
  · rw [if_pos covered]
    apply (getElem_paintColumns reached covered colors (List.finRange 8) beside).trans
    apply if_congr _ rfl rfl
    rw [and_iff_right_iff_imp]
    intro seen
    rcases (sprite.liesOver_iff _ _ _).mp (lies seen) with ⟨-, left, right⟩
    rw [List.any_eq_true]
    refine ⟨⟨column + 8 - sprite.x.toNat, by omega⟩, List.mem_finRange _, ?_⟩
    rw [beq_iff_eq]
    dsimp only
    omega
  · rw [if_neg covered, if_neg]
    intro seen
    exact covered ((sprite.liesOver_iff _ _ _).mp (lies seen)).1

/-- Painting from the last sprite to the first leaves the first one that is seen. -/
theorem getElem_paintSprites (sprites : List Sprite) (colors : ColorLine) {column : Nat}
    (beside : column < 160) :
    (sprites.foldr (video.paintSprite video.indexLine) colors)[column] =
      match sprites.find? fun sprite => decide (video.IsSeen column sprite) with
      | some sprite => video.colorOf (video.paletteOf sprite) (video.spriteAt sprite column)
      | none => colors[column] := by
  induction sprites with
  | nil => rfl
  | cons first sprites inductionHypothesis =>
      rw [List.foldr_cons, getElem_paintSprite reached first _ beside, inductionHypothesis]
      by_cases seen : video.IsSeen column first
      · rw [if_pos seen, List.find?_cons, decide_eq_true seen]
      · rw [if_neg seen, List.find?_cons, decide_eq_false seen]

theorem getElem_composeLine {column : Nat} (beside : column < 160) :
    video.composeLine[column] = video.pixelAt column := by
  have background : (video.indexLine.map (video.shades.under video.bgp).get)[column] =
      video.colorOf video.bgp (video.layerAt column) := by
    rw [Vector.getElem_map, get_under, indexLine, Vector.getElem_ofFn, layerAt_eq reached]
  unfold composeLine pixelAt shownSprites
  split
  · dsimp only
    rw [getElem_paintSprites reached _ _ beside, background]
  · exact background

end Lines

/-- A unit with a background of the first index in its left upper corner.  Two sprites lie
over it, the first one of them behind it and the other one upside down. -/
def stacked : Video :=
  (initial .green).actAll
    [.command (.writeVram ⟨0x0010, by decide⟩ 0xFF),
      .command (.writeVram ⟨0x1800, by decide⟩ 0x01),
      .command (.writeVram ⟨0x002F, by decide⟩ 0x10),
      .command (.writeOam 0 16), .command (.writeOam 1 8), .command (.writeOam 2 1),
      .command (.writeOam 3 0x80), .command (.writeOam 4 16), .command (.writeOam 5 8),
      .command (.writeOam 6 2), .command (.writeOam 7 0x40),
      .command (.writeRegister .obp0 0xE4), .command (.writeRegister .lcdc 0x93)]

end Video

end Dmg
