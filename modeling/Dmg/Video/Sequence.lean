import Dmg.Interrupt
import Dmg.Video.Scanline
import Dmg.Video.Views

/-!
# The cycle of modes

A line that is drawn goes through three modes, a line between two pictures
through one.  While the display is on, the modes follow each other as their
durations run out, however much time passes at once.  Several events on the way
ask for interrupts.
-/

namespace Dmg

namespace Video

/-- The first line between two pictures. -/
def vblankLine : UInt8 := 144

/-- The last line between two pictures. -/
def lastLine : UInt8 := 153

/-- The switches of the status register: each lets one event ask for an
interrupt. -/
def hblankSwitch : UInt8 := 0x08
def vblankSwitch : UInt8 := 0x10
def oamSwitch : UInt8 := 0x20
def compareSwitch : UInt8 := 0x40

/-- The bit of the status register that holds the outcome of the comparison. -/
def compareBit : UInt8 := 0x04

/-- The request of an event whose switch is given. -/
@[inline] def requestIf (video : Video) (switch : UInt8) : UInt8 :=
  if video.stat &&& switch = 0 then 0 else Interrupt.lcdStat.mask

/-- Compare the line that is drawn with the one to compare it with.  While they
agree, every comparison may ask again. -/
@[inline] def compareLine (video : Video) : Video × UInt8 :=
  if video.ly = video.lyc then
    let request := video.requestIf compareSwitch
    ({ video with stat := video.stat ||| compareBit }, request)
  else ({ video with stat := video.stat &&& ~~~compareBit }, 0)

/-- Compare after something else that has asked for interrupts. -/
@[inline] def thenCompare (changed : Video × UInt8) : Video × UInt8 :=
  let compared := changed.1.compareLine
  (compared.1, changed.2 ||| compared.2)

/-- Begin a line that is drawn. -/
@[inline] def enterOamScan (video : Video) : Video × UInt8 :=
  let request := video.requestIf oamSwitch
  (video.setMode .oamScan, request)

/-- Show the picture that is complete, and compose the next one where the one
shown so far was. -/
@[inline] def enterVblank (video : Video) : Video × UInt8 :=
  let request := Interrupt.vblank.mask ||| video.requestIf vblankSwitch
  ({ video.setMode .vblank with back := video.front, front := video.back }, request)

/-- Draw a line and go on to the pause behind it.  With the last line the views
of video memory are brought up to date. -/
def finishDrawing (video : Video) : Video × UInt8 :=
  let request := video.requestIf hblankSwitch
  let drawn := video.drawLine.setMode .hblank
  (if drawn.ly + 1 = vblankLine then drawn.refreshViews else drawn, request)

/-- Go on to the next line that is drawn, or past the last one of them. -/
def finishHblank (video : Video) : Video × UInt8 :=
  let moved := { video with ly := video.ly + 1 }
  thenCompare (if moved.ly = vblankLine then moved.enterVblank else moved.enterOamScan)

/-- Go on to the next line between two pictures, or to the top of a picture. -/
def finishVblank (video : Video) : Video × UInt8 :=
  if video.ly < lastLine then thenCompare ({ video with ly := video.ly + 1 }, 0)
  else thenCompare ({ video with ly := 0 }.enterOamScan)

/-- Go on to the mode that follows. -/
def finishMode (video : Video) : Video × UInt8 :=
  match video.mode with
  | .oamScan => (video.setMode .drawing, 0)
  | .drawing => video.finishDrawing
  | .hblank => video.finishHblank
  | .vblank => video.finishVblank

/-- Go through the modes until the given clock, counted from the beginning of the
present one, falls within one. -/
def runClock (video : Video) (clock : Nat) (requests : UInt8) : Video × UInt8 :=
  if video.mode.duration <= clock then
    let finished := video.finishMode
    runClock finished.1 (clock - video.mode.duration) (requests ||| finished.2)
  else ({ video with clock := clock }, requests)
termination_by clock
decreasing_by
  have positive := video.mode.duration_pos
  omega

/-- Let clock cycles pass.  The answer also holds the requests that arose.  While
the display is off nothing happens. -/
def step (video : Video) (cycles : Nat) : Video × UInt8 :=
  if video.control.isOn then
    let clock := video.clock + cycles
    let compared := video.compareLine
    compared.1.runClock clock compared.2
  else (video, 0)

end Video

end Dmg
