import Dmg.Video.Basic

/-!
# Views of video memory

Two pictures show what video memory holds beside what is on the screen: a sheet
of all tiles, sixteen to a row, and the whole background without its scroll.
Both have the colours of the background.
-/

namespace Dmg

namespace Video

def composeSheet (video : Video) : Raster 128 192 :=
  let palette := video.shades.under video.bgp
  Vector.ofFn fun (y : Fin 192) => Vector.ofFn fun (x : Fin 128) =>
    palette.get (video.tileRows.pixel ⟨y.val / 8 * 16 + x.val / 8, by omega⟩
      ⟨y.val % 8, Nat.mod_lt _ (by decide)⟩ ⟨x.val % 8, Nat.mod_lt _ (by decide)⟩)

/-- The whole background. -/
def composeMap (video : Video) : Raster 256 256 :=
  let palette := video.shades.under video.bgp
  Vector.ofFn fun (y : Fin 256) => Vector.ofFn fun (x : Fin 256) =>
    palette.get (video.mapPixel video.control.backgroundUpperMap (UInt8.ofNat x.val)
      (UInt8.ofNat y.val))

def refreshViews (video : Video) : Video :=
  let sheet := video.composeSheet
  let map := video.composeMap
  { video with tileSheet := sheet, backgroundMap := map }

end Video

end Dmg
