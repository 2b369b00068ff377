/-!
# Colours

A pixel is one of four colour indices until a palette register turns it into
one of four shades, and the shades are colours that the owner of the machine
has chosen.
-/

namespace Dmg

@[ext] structure Color where
  red : UInt8
  green : UInt8
  blue : UInt8
  alpha : UInt8
  deriving DecidableEq, Repr

namespace Color

/-- A colour that hides what is behind it. -/
def rgb (red green blue : UInt8) : Color :=
  ⟨red, green, blue, 0xFF⟩

/-- What the screen shows while it is off. -/
def white : Color := rgb 0xFF 0xFF 0xFF

instance : Inhabited Color := ⟨white⟩

def bytes (color : Color) : List UInt8 :=
  [color.red, color.green, color.blue, color.alpha]

def appendTo (color : Color) (written : ByteArray) : ByteArray :=
  (((written.push color.red).push color.green).push color.blue).push color.alpha

end Color

/-- What a tile says of a pixel. -/
abbrev ColorIndex := Fin 4

/-- Numerals stand for the four indices. -/
instance colorIndexNumerals : @NeZero Nat Zero.ofOfNat0 4 := ⟨by decide⟩

/-- Four colours, the lightest first. -/
abbrev Shades := Vector Color 4

namespace Shades

/-- Pale green to dark green. -/
def green : Shades :=
  #v[.rgb 0xE0 0xF8 0xD0, .rgb 0x88 0xC0 0x70, .rgb 0x34 0x68 0x56, .rgb 0x08 0x18 0x20]

/-- The shade that a palette register selects for a colour index: each index has
two bits, the first index the lowest. -/
@[inline] def select (register : UInt8) (index : ColorIndex) : Fin 4 :=
  Fin.ofNat 4 (register.toNat >>> (2 * index.val))

/-- The colours of the four indices under a palette register. -/
def under (shades : Shades) (register : UInt8) : Vector Color 4 :=
  Vector.ofFn fun index => shades.get (select register index)

end Shades

/-- A picture, row by row from the top. -/
abbrev Raster (width height : Nat) := Vector (Vector Color width) height

namespace Raster

def filled (width height : Nat) (color : Color) : Raster width height :=
  Vector.replicate height (Vector.replicate width color)

def bytes {width height : Nat} (raster : Raster width height) : ByteArray :=
  raster.foldl (fun written row => row.foldl (fun written color => color.appendTo written) written)
    (ByteArray.emptyWithCapacity (4 * width * height))

end Raster

abbrev Frame := Raster 160 144

end Dmg
