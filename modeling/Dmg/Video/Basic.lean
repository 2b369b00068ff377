import Dmg.Video.Control

/-!
# The video unit

The video unit owns the memory that pictures are made of and goes through a
fixed cycle of modes, line by line.  It composes one picture while it shows
another; a picture that is complete takes the place of the one shown.
-/

namespace Dmg

/-- What the video unit is doing. -/
inductive Mode where
  /-- Between two lines. -/
  | hblank
  /-- Between two pictures. -/
  | vblank
  /-- Looking for the sprites of a line. -/
  | oamScan
  /-- Drawing a line. -/
  | drawing
  deriving DecidableEq, Repr

namespace Mode

/-- The two bits that stand for a mode. -/
@[inline] def code : Mode -> UInt8
  | hblank => 0
  | vblank => 1
  | oamScan => 2
  | drawing => 3

def name : Mode -> String
  | hblank => "HBlank"
  | vblank => "VBlank"
  | oamScan => "OamScan"
  | drawing => "Drawing"

/-- How long a mode lasts, in clock cycles.  The three modes of a line that is
drawn last as long together as a line between two pictures. -/
@[inline] def duration : Mode -> Nat
  | hblank => 204
  | vblank => 456
  | oamScan => 80
  | drawing => 172

theorem duration_pos (mode : Mode) : 0 < mode.duration := by
  cases mode <;> decide

end Mode

/-- The memory that the sprites are in: forty entries of four bytes. -/
abbrev SpriteMemory := Vector UInt8 160

abbrev SpriteOffset := Fin 160

/-- The state of the video unit: its memories and registers, its place in a picture, and
the pictures that it has made.  A picture is drawn line by line into one buffer and shown
from the other one, and the two views are kept until the next picture. -/
@[ext] structure Video where
  vram : VideoMemory
  oam : SpriteMemory
  /-- What the tiles in `vram` decode to. -/
  tileRows : TileRows
  mode : Mode
  /-- Clock cycles since the mode began. -/
  clock : Nat
  /-- The line that is drawn. -/
  ly : UInt8
  /-- The line that is compared with it. -/
  lyc : UInt8
  /-- The status register without its highest bit: interrupt switches, the
  outcome of the comparison, and the code of the mode. -/
  stat : UInt8
  control : LcdControl
  scy : UInt8
  scx : UInt8
  wy : UInt8
  wx : UInt8
  bgp : UInt8
  obp0 : UInt8
  obp1 : UInt8
  shades : Shades
  /-- The picture that is composed. -/
  back : Frame
  /-- The picture that is shown. -/
  front : Frame
  /-- All tiles, as they were when the last picture was complete. -/
  tileSheet : Raster 128 192
  /-- The whole background, as it was when the last picture was complete. -/
  backgroundMap : Raster 256 256

namespace Video

/-- The screen while it is off. -/
def whiteFrame : Frame := Raster.filled 160 144 .white

/-- The sheet of tiles before the first picture. -/
def whiteSheet : Raster 128 192 := Raster.filled 128 192 .white

/-- The background before the first picture. -/
def whiteMap : Raster 256 256 := Raster.filled 256 256 .white

/-- The video unit when a cartridge takes over: on, at the top of a picture, with
blank memory. -/
def initial (shades : Shades) : Video where
  vram := Vector.replicate 0x2000 0
  oam := Vector.replicate 160 0
  tileRows := TileRows.blank
  mode := .oamScan
  clock := 0
  ly := 0
  lyc := 0
  stat := Mode.oamScan.code
  control := ⟨0x91⟩
  scy := 0
  scx := 0
  wy := 0
  wx := 0
  bgp := 0xFC
  obp0 := 0
  obp1 := 0
  shades := shades
  back := whiteFrame
  front := whiteFrame
  tileSheet := whiteSheet
  backgroundMap := whiteMap

instance : Inhabited Video := ⟨initial .green⟩

@[inline] def setMode (video : Video) (mode : Mode) : Video :=
  { video with mode := mode, stat := (video.stat &&& 0xFC) ||| mode.code }

/-- Clear the memories and pictures and give every register the value that it has
when a cartridge takes over.  The shades stay. -/
def reset (video : Video) : Video :=
  { video with
    vram := Vector.replicate 0x2000 0
    oam := Vector.replicate 160 0
    tileRows := TileRows.blank
    clock := 0
    ly := 0
    lyc := 0
    stat := 0
    control := ⟨0x91⟩
    scy := 0
    scx := 0
    wy := 0
    wx := 0
    bgp := 0xFC
    obp0 := 0
    obp1 := 0
    back := whiteFrame
    front := whiteFrame
    tileSheet := whiteSheet
    backgroundMap := whiteMap }.setMode .oamScan

theorem reset_eq (video : Video) : video.reset = initial video.shades := by
  have code : ((0 : UInt8) &&& 0xFC) ||| Mode.oamScan.code = Mode.oamScan.code := by decide
  exact congrArg (fun stat => { initial video.shades with stat := stat }) code

/-- The byte of video memory at an offset. -/
@[inline] def readVram (video : Video) (offset : VideoOffset) : UInt8 :=
  video.vram.get offset

/-- The decoded row that a byte of video memory belongs to, if it belongs to a
tile. -/
@[inline] def refreshTileRow (vram : VideoMemory) (rows : TileRows) (offset : VideoOffset) :
    TileRows :=
  if inTiles : offset.val < 0x1800 then
    have lowInside : 2 * (offset.val / 2) < 0x2000 := by omega
    have highInside : 2 * (offset.val / 2) + 1 < 0x2000 := by omega
    rows.set (offset.val / 2)
      (TileRow.decode vram[2 * (offset.val / 2)] vram[2 * (offset.val / 2) + 1])
      (by omega)
  else rows

def writeVram (video : Video) (offset : VideoOffset) (byte : UInt8) : Video :=
  let vram := video.vram.set offset.val byte offset.isLt
  { video with vram := vram, tileRows := refreshTileRow vram video.tileRows offset }

/-- The byte of sprite memory at an offset. -/
@[inline] def readOam (video : Video) (offset : SpriteOffset) : UInt8 :=
  video.oam.get offset

def writeOam (video : Video) (offset : SpriteOffset) (byte : UInt8) : Video :=
  { video with oam := video.oam.set offset.val byte offset.isLt }

/-- The number in a map at a pixel of the background, which is 256 pixels wide
and as high. -/
@[inline] def mapNumber (video : Video) (upper : Bool) (x y : UInt8) : UInt8 :=
  have xBound := x.toNat_lt
  have yBound := y.toNat_lt
  have inside : mapOffset upper + y.toNat / 8 * 32 + x.toNat / 8 < 0x2000 := by
    cases upper <;> simp only [mapOffset, Bool.false_eq_true, if_false, if_true] <;> omega
  video.vram[mapOffset upper + y.toNat / 8 * 32 + x.toNat / 8]

/-- A place within a tile. -/
@[inline] def withinTile (place : UInt8) : Fin 8 :=
  ⟨place.toNat % 8, Nat.mod_lt _ (by decide)⟩

/-- The colour index that a map gives at a pixel. -/
@[inline] def mapPixel (video : Video) (upper : Bool) (x y : UInt8) : ColorIndex :=
  video.tileRows.pixel (video.control.tileOfNumber (video.mapNumber upper x y))
    (withinTile y) (withinTile x)

end Video

end Dmg
