import Dmg.Video.Color

/-!
# Tiles

Video memory holds tiles of eight by eight pixels.  A row of a tile is two
bytes: one has the low bits of its colour indices, the other the high bits, and
the leftmost pixel is in the highest bit of each.

Pixels are looked up far more often than tiles change, so the decoded rows are
kept beside the memory that they come from.
-/

namespace Dmg

/-- The memory that tiles and maps are in: 384 tiles, and after them two maps. -/
abbrev VideoMemory := Vector UInt8 0x2000

abbrev VideoOffset := Fin 0x2000

/-- One of the tiles in video memory. -/
abbrev TileIndex := Fin 384

/-- The eight pixels of one row of a tile. -/
abbrev TileRow := Vector ColorIndex 8

namespace TileRow

/-- The colour index that has the given bits. -/
@[inline] def indexOfBits (low high : Bool) : ColorIndex :=
  match low, high with
  | false, false => 0
  | true, false => 1
  | false, true => 2
  | true, true => 3

/-- The pixels of two bytes. -/
def decode (low high : UInt8) : TileRow :=
  Vector.ofFn fun column =>
    indexOfBits (low.toNat.testBit (7 - column.val)) (high.toNat.testBit (7 - column.val))

def blank : TileRow := Vector.replicate 8 0

end TileRow

/-- The decoded rows of every tile, those of one tile next to each other. -/
abbrev TileRows := Vector TileRow 3072

namespace TileRows

def blank : TileRows := Vector.replicate 3072 TileRow.blank

@[inline] def pixel (rows : TileRows) (tile : TileIndex) (row column : Fin 8) : ColorIndex :=
  have inside : 8 * tile.val + row.val < 3072 := by omega
  rows[8 * tile.val + row.val].get column

end TileRows

end Dmg
