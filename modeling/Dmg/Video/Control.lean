import Dmg.Video.Tile

/-!
# The control register

Each bit of the register is a switch: for the display as a whole, for each of
the three layers, and for where the layers find their maps and tiles.
-/

namespace Dmg

@[ext] structure LcdControl where
  byte : UInt8
  deriving DecidableEq, Repr

namespace LcdControl

@[inline] def isOn (control : LcdControl) : Bool :=
  control.byte &&& 0x80 != 0

/-- Whether the window takes the upper map. -/
@[inline] def windowUpperMap (control : LcdControl) : Bool :=
  control.byte &&& 0x40 != 0

@[inline] def windowShown (control : LcdControl) : Bool :=
  control.byte &&& 0x20 != 0

/-- Whether the maps number the tiles from the first one on. -/
@[inline] def plainNumbers (control : LcdControl) : Bool :=
  control.byte &&& 0x10 != 0

/-- Whether the background takes the upper map. -/
@[inline] def backgroundUpperMap (control : LcdControl) : Bool :=
  control.byte &&& 0x08 != 0

@[inline] def tallSprites (control : LcdControl) : Bool :=
  control.byte &&& 0x04 != 0

@[inline] def spritesShown (control : LcdControl) : Bool :=
  control.byte &&& 0x02 != 0

@[inline] def backgroundShown (control : LcdControl) : Bool :=
  control.byte &&& 0x01 != 0

/-- The height of a sprite in pixels. -/
@[inline] def spriteHeight (control : LcdControl) : Nat :=
  if control.tallSprites then 16 else 8

/-- The tile that a number in a map stands for.  Either the numbers count from
the first tile, or they are signed and count from tile 256. -/
@[inline] def tileOfNumber (control : LcdControl) (number : UInt8) : TileIndex :=
  if plain : control.plainNumbers || 127 < number then
    ⟨number.toNat, Nat.lt_trans number.toNat_lt (by decide)⟩
  else ⟨number.toNat + 256, by
    simp only [Bool.or_eq_true, decide_eq_true_eq, not_or] at plain
    have small : number.toNat <= 127 := Nat.not_lt.mp plain.2
    omega⟩

end LcdControl

/-- Where a map begins in video memory. -/
@[inline] def mapOffset (upper : Bool) : Nat :=
  if upper then 0x1C00 else 0x1800

end Dmg
