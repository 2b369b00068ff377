import Dmg.Video.Sequence

/-!
# The registers of the video unit

Most registers keep what is written.  Switching the display off parks the unit
at the top of a white screen, and a write that bears on the comparison of lines
makes that comparison at once.
-/

namespace Dmg

inductive VideoRegister where
  | lcdc
  | stat
  | scy
  | scx
  | ly
  | lyc
  | bgp
  | obp0
  | obp1
  | wy
  | wx
  deriving DecidableEq, Repr

namespace Video

/-- The status register as it is read: its highest bit is raised. -/
@[inline] def readStat (video : Video) : UInt8 :=
  0x80 ||| video.stat

def readRegister (video : Video) : VideoRegister -> UInt8
  | .lcdc => video.control.byte
  | .stat => video.readStat
  | .scy => video.scy
  | .scx => video.scx
  | .ly => video.ly
  | .lyc => video.lyc
  | .bgp => video.bgp
  | .obp0 => video.obp0
  | .obp1 => video.obp1
  | .wy => video.wy
  | .wx => video.wx

/-- Switch the display off.  The mode is that of the top of a picture, but its
code in the status register is zero until the next mode begins. -/
def park (video : Video) : Video :=
  { video with
    mode := .oamScan
    stat := video.stat &&& 0xFC
    clock := 0
    ly := 0
    back := whiteFrame
    front := whiteFrame }

def writeControl (video : Video) (byte : UInt8) : Video :=
  let changed := { video with control := ⟨byte⟩ }
  if video.control.isOn && !changed.control.isOn then changed.park else changed

/-- Store into a register.  The answer also holds the requests that this gives
rise to. -/
def writeRegister (video : Video) (register : VideoRegister) (byte : UInt8) : Video × UInt8 :=
  match register with
  | .lcdc => (video.writeControl byte, 0)
  | .stat =>
      { video with stat := (byte &&& 0x78) ||| (video.stat &&& 0x07) }.compareLine
  | .scy => ({ video with scy := byte }, 0)
  | .scx => ({ video with scx := byte }, 0)
  | .ly => (video, 0)
  | .lyc => { video with lyc := byte }.compareLine
  | .bgp => ({ video with bgp := byte }, 0)
  | .obp0 => ({ video with obp0 := byte }, 0)
  | .obp1 => ({ video with obp1 := byte }, 0)
  | .wy => ({ video with wy := byte }, 0)
  | .wx => ({ video with wx := byte }, 0)

end Video

end Dmg
