import Dmg.Interrupt

/-!
# The joypad

Eight buttons in two rows of four.  The program selects a row and reads its
buttons as bits that are lowered while a button is held.  A button that goes
down asks for an interrupt; one that is held on does not ask again.
-/

namespace Dmg

inductive Button where
  | right
  | left
  | up
  | down
  | a
  | b
  | select
  | start
  deriving DecidableEq, Repr

namespace Button

/-- Every button, the directions first. -/
def all : List Button :=
  [right, left, up, down, a, b, select, start]

def name : Button -> String
  | right => "Right"
  | left => "Left"
  | up => "Up"
  | down => "Down"
  | a => "A"
  | b => "B"
  | select => "Select"
  | start => "Start"

/-- Whether a button is in the row of directions. -/
def isDirection : Button -> Bool
  | right | left | up | down => true
  | a | b | select | start => false

/-- The bit of a button in its row. -/
def mask : Button -> UInt8
  | right | a => 0x01
  | left | b => 0x02
  | up | select => 0x04
  | down | start => 0x08

end Button

@[ext] structure Joypad where
  /-- The bits that select a row. -/
  select : UInt8
  /-- The row of directions: a lowered bit is a held button. -/
  directions : UInt8
  /-- The other row. -/
  actions : UInt8
  deriving DecidableEq, Repr

namespace Joypad

/-- No button held and no row selected yet. -/
def initial : Joypad := ⟨0x00, 0x0F, 0x0F⟩

instance : Inhabited Joypad := ⟨initial⟩

/-- The register as it is read.  With both rows selected every button seems to
be held, with none selected none does. -/
def read (joypad : Joypad) : UInt8 :=
  if joypad.select = 0x10 then 0xD0 ||| joypad.actions
  else if joypad.select = 0x20 then 0xE0 ||| joypad.directions
  else if joypad.select = 0x30 then 0xFF
  else 0xC0

/-- Store into the register, of which only the selecting bits can be written. -/
def write (joypad : Joypad) (byte : UInt8) : Joypad :=
  { joypad with select := byte &&& 0x30 }

def row (joypad : Joypad) (button : Button) : UInt8 :=
  if button.isDirection then joypad.directions else joypad.actions

def isHeld (joypad : Joypad) (button : Button) : Bool :=
  joypad.row button &&& button.mask == 0

/-- Hold a button or let it go.  The answer also holds the request that this
gives rise to. -/
def setButton (joypad : Joypad) (button : Button) (held : Bool) : Joypad × UInt8 :=
  let row := joypad.row button
  let row := if held then row &&& ~~~button.mask else row ||| button.mask
  let changed :=
    if button.isDirection then { joypad with directions := row }
    else { joypad with actions := row }
  (changed, if held && !joypad.isHeld button then Interrupt.joypad.mask else 0)

end Joypad

end Dmg
