import Dmg.Proofs.Safety.Checked
import Dmg.Video.Views

/-!
# Checked pictures

A picture is a row of bytes, four for each pixel, and the pixels of all tiles are a
row of colour indices.  Whatever a map, a tile or a palette holds, it leads to a
place in these rows: the numbers of a map stand for tiles that there are, an index
has two bits, and a palette has a colour for every index.
-/

namespace Dmg

namespace Raster

variable {width height : Nat}

/-- Store the four bytes of a pixel, all of which have to be there. -/
def put? (raster : Raster width height) (place : Nat) (color : Color) :
    Option (Raster width height) :=
  if 4 * place + 4 <= 4 * width * height then Checked.storeFlat raster place color else none

theorem put?_eq {row column : Nat} (above : row < height) (beside : column < width)
    (raster : Raster width height) (line : Vector Color width) (color : Color) :
    put? (raster.setIfInBounds row line) (width * row + column) color =
      some (raster.setIfInBounds row (line.setIfInBounds column color)) := by
  have rows : width * row + width <= width * height := Nat.mul_le_mul_left width above
  have inside : 4 * (width * row + column) + 4 <= 4 * width * height := by
    rw [Nat.mul_assoc]
    omega
  rw [put?, if_pos inside, Checked.storeFlat_eq above beside]

/-- Paint the pixels of a row one after the other. -/
def paintRow? (raster : Raster width height) (row : Nat) (color? : Nat -> Option Color) :
    Option (Raster width height) :=
  (List.range width).foldlM (fun raster column => do
    let color <- color? column
    put? raster (width * row + column) color) raster

def paint? (raster : Raster width height) (color? : Nat -> Nat -> Option Color) :
    Option (Raster width height) :=
  (List.range height).foldlM (fun raster row => paintRow? raster row (color? row)) raster

theorem paintRow?_eq {row : Nat} (above : row < height) {color? : Nat -> Option Color}
    (color : Fin width -> Color) (found : ∀ column, color? column.val = some (color column))
    (raster : Raster width height) :
    paintRow? raster row color? = some (raster.setIfInBounds row (Vector.ofFn color)) := by
  conv => lhs; rw [← Checked.setIfInBounds_self above raster]
  refine Checked.foldlM_range_eq_some (fun line => raster.setIfInBounds row line) color ?_ _
  intro column line
  rw [found column]
  exact put?_eq above column.isLt raster line (color column)

theorem paint?_eq {color? : Nat -> Nat -> Option Color} (color : Fin height -> Fin width -> Color)
    (found : ∀ row column, color? row.val column.val = some (color row column))
    (raster : Raster width height) :
    paint? raster color? = some (Vector.ofFn fun row => Vector.ofFn (color row)) := by
  refine Checked.foldlM_range_eq_some id (fun row => Vector.ofFn (color row)) ?_ raster
  intro row painted
  exact paintRow?_eq row.isLt (color row) (found row) painted

end Raster

namespace Shades

def under? (shades : Shades) (register : UInt8) : Option (Vector Color 4) :=
  (List.range 4).foldlM (fun colors index => do
    let shade <- shades[(register.toNat >>> (2 * index)) % 4]?
    Checked.store colors index shade) (Vector.replicate 4 .white)

theorem under?_eq (shades : Shades) (register : UInt8) :
    shades.under? register = some (shades.under register) := by
  refine Checked.foldlM_range_eq_some id (fun index => shades.get (select register index)) ?_ _
  intro index colors
  have bound : (register.toNat >>> (2 * index.val)) % 4 < 4 := Nat.mod_lt _ (by decide)
  rw [getElem?_pos shades _ bound]
  exact Checked.store_eq index.isLt _

end Shades

namespace TileRows

/-- A pixel by its place among the pixels of all tiles. -/
def pixel? (rows : TileRows) (place : Nat) : Option ColorIndex := do
  let row <- rows[place / 8]?
  row[place % 8]?

theorem pixel?_eq (rows : TileRows) (tile : TileIndex) (row column : Fin 8) :
    rows.pixel? (64 * tile.val + 8 * row.val + column.val) = some (rows.pixel tile row column) := by
  have quotient : (64 * tile.val + 8 * row.val + column.val) / 8 = 8 * tile.val + row.val := by
    omega
  have remainder : (64 * tile.val + 8 * row.val + column.val) % 8 = column.val := by
    omega
  have inside : 8 * tile.val + row.val < 3072 := by omega
  rw [pixel?, quotient, remainder, getElem?_pos rows _ inside]
  exact getElem?_pos rows[8 * tile.val + row.val] column.val column.isLt

end TileRows

namespace LcdControl

/-- The tile that a number in a map stands for, as a number. -/
def tileNumber (control : LcdControl) (number : UInt8) : Nat :=
  if control.plainNumbers || 127 < number then number.toNat else number.toNat + 256

theorem tileNumber_eq (control : LcdControl) (number : UInt8) :
    control.tileNumber number = (control.tileOfNumber number).val := by
  rw [tileNumber, tileOfNumber]
  split
  · rfl
  · rfl

end LcdControl

namespace Video

def mapPixel? (video : Video) (upper : Bool) (x y : UInt8) : Option ColorIndex := do
  let number <- video.vram[mapOffset upper + y.toNat / 8 * 32 + x.toNat / 8]?
  video.tileRows.pixel?
    (64 * video.control.tileNumber number + 8 * (y.toNat % 8) + x.toNat % 8)

theorem mapPixel?_eq (video : Video) (upper : Bool) (x y : UInt8) :
    video.mapPixel? upper x y = some (video.mapPixel upper x y) := by
  have xBound := x.toNat_lt
  have yBound := y.toNat_lt
  have inside : mapOffset upper + y.toNat / 8 * 32 + x.toNat / 8 < 0x2000 := by
    cases upper <;> simp only [mapOffset, Bool.false_eq_true, if_false, if_true] <;> omega
  rw [mapPixel?, getElem?_pos video.vram _ inside]
  simp only [Option.bind_eq_bind, Option.bind_some, LcdControl.tileNumber_eq]
  exact video.tileRows.pixel?_eq _ (withinTile y) (withinTile x)

/-- The sheet of all tiles, painted over an older one. -/
def composeSheet? (video : Video) : Option (Raster 128 192) := do
  let palette <- video.shades.under? video.bgp
  Raster.paint? video.tileSheet fun y x => do
    let index <- video.tileRows.pixel? (64 * (y / 8 * 16 + x / 8) + 8 * (y % 8) + x % 8)
    palette[index.val]?

/-- The whole background, painted over an older one. -/
def composeMap? (video : Video) : Option (Raster 256 256) := do
  let palette <- video.shades.under? video.bgp
  Raster.paint? video.backgroundMap fun y x => do
    let index <- video.mapPixel? video.control.backgroundUpperMap (UInt8.ofNat x) (UInt8.ofNat y)
    palette[index.val]?

def refreshViews? (video : Video) : Option Video := do
  let sheet <- video.composeSheet?
  let map <- video.composeMap?
  some { video with tileSheet := sheet, backgroundMap := map }

theorem composeSheet?_eq (video : Video) : video.composeSheet? = some video.composeSheet := by
  rw [composeSheet?, composeSheet, Shades.under?_eq, Option.bind_eq_bind, Option.bind_some]
  refine Raster.paint?_eq _ (fun y x => ?_) video.tileSheet
  have inside : y.val / 8 * 16 + x.val / 8 < 384 := by omega
  have found := video.tileRows.pixel?_eq ⟨y.val / 8 * 16 + x.val / 8, inside⟩
    ⟨y.val % 8, Nat.mod_lt _ (by decide)⟩ ⟨x.val % 8, Nat.mod_lt _ (by decide)⟩
  rw [found]
  exact (video.shades.under video.bgp).getElem?_eq_getElem _

theorem composeMap?_eq (video : Video) : video.composeMap? = some video.composeMap := by
  rw [composeMap?, composeMap, Shades.under?_eq, Option.bind_eq_bind, Option.bind_some]
  refine Raster.paint?_eq _ (fun y x => ?_) video.backgroundMap
  rw [mapPixel?_eq]
  exact (video.shades.under video.bgp).getElem?_eq_getElem _

theorem refreshViews?_eq (video : Video) : video.refreshViews? = some video.refreshViews := by
  rw [refreshViews?, composeSheet?_eq, composeMap?_eq]
  rfl

end Video

end Dmg
