import Dmg.Board.Location
import Dmg.Bus
import Dmg.Cartridge.Basic
import Dmg.Timing

/-!
# The board

The board is what the processor's bus leads to: the cartridge, the memories and
the devices.  The devices do not know the interrupt registers; what they ask
for is put there by the board.
-/

namespace Dmg

/-- The image that the machine starts from. -/
abbrev BootImage := Vector UInt8 256

namespace BootImage

/-- The image of some bytes, if there are as many as it takes. -/
def ofBytes (bytes : ByteArray) : Except ImageError BootImage :=
  if bytes.size = 256 then
    .ok (Vector.ofFn fun index => Cartridge.imageByte bytes index.val)
  else .error (.bootSize bytes.size)

end BootImage

/-- The memories and devices that the processor reaches over its bus.  The cartridge and
the start-up image stay when the power goes off, and nothing else does. -/
@[ext] structure Board where
  cartridge : Cartridge
  bootImage : Option BootImage
  /-- Whether the start-up image lies over the cartridge. -/
  bootActive : Bool
  workMemory : Vector UInt8 0x2000
  highMemory : Vector UInt8 127
  video : Video
  timer : Timer
  joypad : Joypad
  serial : Serial
  interrupts : InterruptControl
  /-- The page of the last transfer to sprite memory. -/
  transferPage : UInt8

namespace Board

/-- A board when power comes on, with the given image in its slot. -/
def start (shades : Shades) (cartridge : Cartridge) (bootImage : Option BootImage) : Board where
  cartridge := cartridge
  bootImage := bootImage
  bootActive := bootImage.isSome
  workMemory := Vector.replicate 0x2000 0
  highMemory := Vector.replicate 127 0
  video := Video.initial shades
  timer := Timer.initial
  joypad := Joypad.initial
  serial := Serial.initial
  interrupts := InterruptControl.initial
  transferPage := 0

def empty (shades : Shades) : Board :=
  start shades Cartridge.absent none

instance : Inhabited Board := ⟨empty .green⟩

/-- Clear the memories and the registers and reset the devices.  The images stay,
and a start-up image lies over the cartridge again. -/
def reset (board : Board) : Board :=
  { board with
    cartridge := board.cartridge.reset
    bootActive := board.bootImage.isSome
    workMemory := Vector.replicate 0x2000 0
    highMemory := Vector.replicate 127 0
    video := board.video.reset
    timer := Timer.initial
    joypad := Joypad.initial
    serial := board.serial.reset
    interrupts := InterruptControl.initial
    transferPage := 0 }

/-- A board is reset to one that has just been turned on, with the same images and
shades. -/
theorem reset_eq (board : Board) :
    board.reset = start board.video.shades board.cartridge.reset board.bootImage := by
  rw [reset, Video.reset_eq]
  rfl

def insertCartridge (board : Board) (cartridge : Cartridge) : Board :=
  { board with cartridge := cartridge }

/-- Lay a start-up image over the cartridge. -/
def insertBoot (board : Board) (image : BootImage) : Board :=
  { board with bootImage := some image, bootActive := true }

/-- The byte at an address of the image range.  The start-up image lies over the
first page. -/
@[inline] def readImage (board : Board) (address : UInt16) : UInt8 :=
  if board.bootActive && Word.high address == 0 then
    match board.bootImage with
    | none => board.cartridge.readImage address
    | some image => image.get ⟨(Word.low address).toNat, (Word.low address).toNat_lt⟩
  else board.cartridge.readImage address

@[inline] def readLocation (board : Board) (location : Location) : UInt8 :=
  match location with
  | .image address => board.readImage address
  | .videoMemory offset => board.video.readVram offset
  | .cartridgeMemory address => board.cartridge.readMemory address
  | .workMemory offset => board.workMemory.get offset
  | .spriteMemory offset => board.video.readOam offset
  | .joypad => board.joypad.read
  | .serial register => board.serial.read register
  | .timer register => board.timer.read register
  | .interruptRequests => board.interrupts.readRequests
  | .video register => board.video.readRegister register
  | .transfer => board.transferPage
  | .bootSwitch => Cartridge.openBus
  | .highMemory offset => board.highMemory.get offset
  | .interruptPermissions => board.interrupts.permissions
  | .nowhere => Cartridge.openBus

/-- The byte at an address.  Reading changes nothing. -/
def read (board : Board) (address : UInt16) : UInt8 :=
  board.readLocation (.ofAddress address)

/-- Put requests where the processor looks for them. -/
@[inline] def request (board : Board) (requests : UInt8) : Board :=
  { board with interrupts := board.interrupts.request requests }

/-- Copy the byte at an offset of a page to the same offset of sprite memory. -/
@[inline] def transferByte (page : UInt8) (board : Board) (offset : SpriteOffset) : Board :=
  let byte := board.read (Word.ofBytes page (UInt8.ofNat offset.val))
  { board with video := board.video.writeOam offset byte }

/-- Fill sprite memory from a page, byte after byte and at once. -/
def transfer (board : Board) (page : UInt8) : Board :=
  (List.finRange 160).foldl (transferByte page) { board with transferPage := page }

/-- A transfer changes sprite memory and remembers its page, and that is all. -/
theorem exists_transfer_eq (board : Board) (page : UInt8) :
    ∃ oam, board.transfer page =
      { board with video := { board.video with oam := oam }, transferPage := page } := by
  have copied (offsets : List SpriteOffset) (board : Board) :
      ∃ oam, offsets.foldl (transferByte page) board =
        { board with video := { board.video with oam := oam } } := by
    induction offsets generalizing board with
    | nil => exact ⟨board.video.oam, rfl⟩
    | cons offset offsets inductionHypothesis =>
        exact inductionHypothesis (transferByte page board offset)
  exact copied _ _

@[inline] def writeLocation (board : Board) (location : Location) (byte : UInt8) : Board :=
  match location with
  | .image address => { board with cartridge := board.cartridge.writeImage address byte }
  | .videoMemory offset => { board with video := board.video.writeVram offset byte }
  | .cartridgeMemory address =>
      { board with cartridge := board.cartridge.writeMemory address byte }
  | .workMemory offset =>
      { board with workMemory := board.workMemory.set offset.val byte offset.isLt }
  | .spriteMemory offset => { board with video := board.video.writeOam offset byte }
  | .joypad => { board with joypad := board.joypad.write byte }
  | .serial register => { board with serial := board.serial.write register byte }
  | .timer register => { board with timer := board.timer.write register byte }
  | .interruptRequests => { board with interrupts := board.interrupts.writeRequests byte }
  | .video register =>
      let written := board.video.writeRegister register byte
      { board with video := written.1 }.request written.2
  | .transfer => board.transfer byte
  | .bootSwitch => { board with bootActive := false }
  | .highMemory offset =>
      { board with highMemory := board.highMemory.set offset.val byte offset.isLt }
  | .interruptPermissions =>
      { board with interrupts := { board.interrupts with permissions := byte } }
  | .nowhere => board

def write (board : Board) (address : UInt16) (byte : UInt8) : Board :=
  board.writeLocation (.ofAddress address) byte

instance : Bus Board where
  read board address := (board.read address, board)
  write := write

/-- Let the devices go on for the time that the processor took. -/
def advance (board : Board) (timing : Timing) : Board :=
  let shown := board.video.step timing.clocks
  let counted := board.timer.step timing.machine
  { board with video := shown.1, timer := counted.1 }.request (shown.2 ||| counted.2)

def setButton (board : Board) (button : Button) (held : Bool) : Board :=
  let changed := board.joypad.setButton button held
  { board with joypad := changed.1 }.request changed.2

end Board

end Dmg
