import Dmg.Video.Basic

/-!
# Composing a line

A line of the picture is composed of three layers.  The background and the
window, which lies over it, give each column a colour index.  The sprites are
painted over the colours of these, the last entry of sprite memory first, so
that where sprites meet the earlier entry stays on top.
-/

namespace Dmg

abbrev IndexLine := Vector ColorIndex 160

abbrev ColorLine := Vector Color 160

@[ext] structure Sprite where
  /-- Sixteen below the sprite's first line. -/
  y : UInt8
  /-- Eight right of the sprite's first column. -/
  x : UInt8
  tile : UInt8
  attributes : UInt8
  deriving DecidableEq, Repr

namespace Sprite

/-- Whether the background hides the sprite where its index is not zero. -/
@[inline] def isBehind (sprite : Sprite) : Bool :=
  sprite.attributes &&& 0x80 != 0

@[inline] def flipsRows (sprite : Sprite) : Bool :=
  sprite.attributes &&& 0x40 != 0

/-- Whether the sprite is turned left to right. -/
@[inline] def flipsColumns (sprite : Sprite) : Bool :=
  sprite.attributes &&& 0x20 != 0

/-- Whether the sprite has the second of its two palettes. -/
@[inline] def secondPalette (sprite : Sprite) : Bool :=
  sprite.attributes &&& 0x10 != 0

/-- Whether a sprite of the given height has a row on a line. -/
@[inline] def covers (sprite : Sprite) (height line : Nat) : Bool :=
  sprite.y.toNat <= line + 16 && line + 16 < sprite.y.toNat + height

/-- The row of the sprite's tiles that a line shows. -/
@[inline] def rowAt (sprite : Sprite) (height line : Nat) : Nat :=
  let row := line + 16 - sprite.y.toNat
  if sprite.flipsRows then height - 1 - row else row

/-- The column of the sprite's tiles that its column on the screen shows. -/
@[inline] def columnAt (sprite : Sprite) (column : Fin 8) : Fin 8 :=
  if sprite.flipsColumns then column.rev else column

/-- The number of the sprite's first tile.  Of a tall sprite the lowest bit does
not count. -/
@[inline] def firstTile (sprite : Sprite) (tall : Bool) : UInt8 :=
  if tall then sprite.tile &&& 0xFE else sprite.tile

end Sprite

namespace Video

def sprite (video : Video) (index : Fin 40) : Sprite where
  y := video.oam.get ⟨4 * index.val, by omega⟩
  x := video.oam.get ⟨4 * index.val + 1, by omega⟩
  tile := video.oam.get ⟨4 * index.val + 2, by omega⟩
  attributes := video.oam.get ⟨4 * index.val + 3, by omega⟩

/-- All entries of sprite memory in their order. -/
def sprites (video : Video) : List Sprite :=
  (List.finRange 40).map video.sprite

/-- Whether the window lies over a column of the line that is drawn. -/
@[inline] def windowCovers (video : Video) (column : Nat) : Bool :=
  video.control.windowShown && video.wy <= video.ly && video.wx.toNat <= column + 7

/-- The colour index that window and background give to a column. -/
@[inline] def layerIndex (video : Video) (column : Nat) : ColorIndex :=
  if video.windowCovers column then
    video.mapPixel video.control.windowUpperMap (UInt8.ofNat (column + 7 - video.wx.toNat))
      (video.ly - video.wy)
  else if video.control.backgroundShown then
    video.mapPixel video.control.backgroundUpperMap (UInt8.ofNat column + video.scx)
      (video.ly + video.scy)
  else 0

/-- The colour indices of the line that is drawn, below the sprites. -/
def indexLine (video : Video) : IndexLine :=
  Vector.ofFn fun column => video.layerIndex column.val

/-- The colour index of a sprite at one of its columns on a line. -/
@[inline] def spriteIndex (video : Video) (sprite : Sprite) (line : Nat) (column : Fin 8) :
    ColorIndex :=
  let row := sprite.rowAt video.control.spriteHeight line
  let tile := (sprite.firstTile video.control.tallSprites).toNat + row / 8
  video.tileRows.pixel (Fin.ofNat 384 tile) ⟨row % 8, Nat.mod_lt _ (by decide)⟩
    (sprite.columnAt column)

/-- Paint one column of a sprite over a line, unless it is beside the screen,
transparent, or hidden. -/
@[inline] def paintColumn (video : Video) (indices : IndexLine) (palette : Vector Color 4)
    (sprite : Sprite) (line : ColorLine) (column : Fin 8) : ColorLine :=
  if beside : 8 <= sprite.x.toNat + column.val ∧ sprite.x.toNat + column.val < 168 then
    have inside : sprite.x.toNat + column.val - 8 < 160 := by omega
    let place := sprite.x.toNat + column.val - 8
    let index := video.spriteIndex sprite video.ly.toNat column
    if index = 0 || (sprite.isBehind && indices[place] != 0) then line
    else line.set place (palette.get index)
  else line

def paintSprite (video : Video) (indices : IndexLine) (sprite : Sprite) (line : ColorLine) :
    ColorLine :=
  if sprite.covers video.control.spriteHeight video.ly.toNat then
    let palette := video.shades.under (if sprite.secondPalette then video.obp1 else video.obp0)
    (List.finRange 8).foldl (video.paintColumn indices palette sprite) line
  else line

def composeLine (video : Video) : ColorLine :=
  let indices := video.indexLine
  let palette := video.shades.under video.bgp
  let line : ColorLine := indices.map palette.get
  if video.control.spritesShown then
    video.sprites.foldr (video.paintSprite indices) line
  else line

/-- Put the line that is drawn into the picture that is composed. -/
def drawLine (video : Video) : Video :=
  let line := video.composeLine
  { video with back := video.back.setIfInBounds video.ly.toNat line }

end Video

end Dmg
