import Dmg.Proofs.Board.Reached
import Dmg.Proofs.Console.Video

/-!
# The board with what its parts keep for themselves

A bank controller counts the banks of its cartridge once, when it is built, and the
serial link remembers whether the bytes that are sent are to be logged.  With the
decoded palettes and the indices of a line these are all that a board keeps and does
not show.

Counts, palettes and the answer about the log are what the rest of the board makes of
them, and stay so whatever happens.  So reads, writes and time show nothing of them.
-/

namespace Dmg

/-! ## The cartridge -/

/-- A bank controller with the numbers of banks that it was built for. -/
@[ext] structure BankController where
  registers : Mbc1
  imageBanks : Nat
  memoryBanks : Nat

namespace BankController

/-- A controller when power comes on.  It has at least one bank of each kind. -/
def new (imageBanks memoryBanks : Nat) : BankController :=
  ⟨.initial, max imageBanks 1, max memoryBanks 1⟩

theorem new_eq {imageBanks memoryBanks : Nat} (image : 0 < imageBanks)
    (memory : 0 < memoryBanks) :
    new imageBanks memoryBanks = ⟨.initial, imageBanks, memoryBanks⟩ := by
  rw [new, Nat.max_eq_left image, Nat.max_eq_left memory]

def write (controller : BankController) (address : UInt16) (byte : UInt8) : BankController :=
  { controller with registers := controller.registers.write address byte }

end BankController

/-- A cartridge whose controller has its own numbers of banks. -/
@[ext] structure CartridgeUnit where
  image : ByteArray
  memory : Array UInt8
  kind : CartridgeKind
  controller? : Option BankController

namespace CartridgeUnit

def absent : CartridgeUnit where
  image := ByteArray.empty
  memory := Array.replicate Mbc1.memoryBankSize 0
  kind := .romOnly
  controller? := none

/-- The cartridge of an image, unless the image is refused.  Its controller is built
for the length of the image and for the memory that the header asks for. -/
def ofImage (image : ByteArray) : Except ImageError CartridgeUnit :=
  match Cartridge.ofImage image with
  | .error refusal => .error refusal
  | .ok cartridge =>
      let imageBanks := image.size / Mbc1.imageBankSize
      let memoryBanks :=
        Cartridge.memoryBanksOfCode (Cartridge.imageByte image Cartridge.memoryOffset)
      .ok
        { image := cartridge.image
          memory := cartridge.memory
          kind := cartridge.kind
          controller? := cartridge.controller?.map fun _ => .new imageBanks memoryBanks }

/-- Build the controller again and clear the memory. -/
def reset (unit : CartridgeUnit) : CartridgeUnit :=
  let imageBanks := unit.image.size / Mbc1.imageBankSize
  let memoryBanks := unit.memory.size / Mbc1.memoryBankSize
  { unit with
    controller? := unit.controller?.map fun _ => .new imageBanks memoryBanks
    memory := Array.replicate unit.memory.size 0 }

/-- The cartridge that can be seen. -/
def cartridge (unit : CartridgeUnit) : Cartridge where
  image := unit.image
  memory := unit.memory
  kind := unit.kind
  controller? := unit.controller?.map BankController.registers

def readImage (unit : CartridgeUnit) (address : UInt16) : UInt8 :=
  match unit.controller? with
  | none => Cartridge.imageByte unit.image address.toNat
  | some controller =>
      Cartridge.imageByte unit.image
        (controller.registers.imageOffset controller.imageBanks address)

def writeImage (unit : CartridgeUnit) (address : UInt16) (byte : UInt8) : CartridgeUnit :=
  { unit with
    controller? := unit.controller?.map fun controller => controller.write address byte }

def offset? (unit : CartridgeUnit) (address : UInt16) : Option Nat :=
  match unit.controller? with
  | none => some (address.toNat % Mbc1.memoryBankSize)
  | some controller => controller.registers.memoryOffset controller.memoryBanks address

def readMemory (unit : CartridgeUnit) (address : UInt16) : UInt8 :=
  match unit.offset? address with
  | none => Cartridge.openBus
  | some offset => unit.memory.getD offset Cartridge.openBus

def writeMemory (unit : CartridgeUnit) (address : UInt16) (byte : UInt8) : CartridgeUnit :=
  match unit.offset? address with
  | none => unit
  | some offset => { unit with memory := unit.memory.setIfInBounds offset byte }

/-- The cartridge whose controller has counted its banks. -/
def ofCartridge (cartridge : Cartridge) : CartridgeUnit where
  image := cartridge.image
  memory := cartridge.memory
  kind := cartridge.kind
  controller? := cartridge.controller?.map fun registers =>
    ⟨registers, cartridge.imageBanks, cartridge.memoryBanks⟩

@[simp] theorem cartridge_ofCartridge (cartridge : Cartridge) :
    (ofCartridge cartridge).cartridge = cartridge := by
  rcases cartridge with ⟨image, memory, kind, controller?⟩
  cases controller? <;> rfl

section Accesses

variable (cartridge : Cartridge) (address : UInt16) (byte : UInt8)

theorem readImage_ofCartridge :
    (ofCartridge cartridge).readImage address = cartridge.readImage address := by
  rcases cartridge with ⟨image, memory, kind, controller?⟩
  cases controller? <;> rfl

theorem writeImage_ofCartridge :
    (ofCartridge cartridge).writeImage address byte =
      ofCartridge (cartridge.writeImage address byte) := by
  rcases cartridge with ⟨image, memory, kind, controller?⟩
  cases controller? <;> rfl

theorem offset?_ofCartridge :
    (ofCartridge cartridge).offset? address = cartridge.offset? address := by
  rcases cartridge with ⟨image, memory, kind, controller?⟩
  cases controller? <;> rfl

theorem readMemory_ofCartridge :
    (ofCartridge cartridge).readMemory address = cartridge.readMemory address := by
  rw [readMemory, Cartridge.readMemory, offset?_ofCartridge]
  rfl

theorem writeMemory_ofCartridge :
    (ofCartridge cartridge).writeMemory address byte =
      ofCartridge (cartridge.writeMemory address byte) := by
  rw [writeMemory, Cartridge.writeMemory, offset?_ofCartridge]
  cases cartridge.offset? address with
  | none => rfl
  | some offset =>
      have size : (cartridge.memory.setIfInBounds offset byte).size = cartridge.memory.size :=
        Array.size_setIfInBounds
      simp only [ofCartridge, Cartridge.imageBanks, Cartridge.memoryBanks, size]

end Accesses

/-- An image that is accepted has as many banks as its controller is built for. -/
theorem ofImage_of_accepted {image : ByteArray} {cartridge : Cartridge}
    (accepted : Cartridge.ofImage image = .ok cartridge) :
    ofImage image = .ok (ofCartridge cartridge) := by
  have whole := Cartridge.whole_of_ofImage accepted
  rw [ofImage, accepted]
  rcases Cartridge.ofImage_eq_ok_iff.mp accepted with ⟨-, kind, -, rfl⟩
  have memory : (Cartridge.ofKind image kind).memoryBanks =
      Cartridge.memoryBanksOfCode (Cartridge.imageByte image Cartridge.memoryOffset) := by
    rw [Cartridge.memoryBanks, Cartridge.ofKind, Array.size_replicate]
    exact Nat.mul_div_cancel _ (by decide)
  have memoryBanks := whole.memoryBanks_pos
  rw [memory] at memoryBanks
  refine congrArg Except.ok (CartridgeUnit.ext rfl rfl rfl ?_)
  cases kind with
  | romOnly => rfl
  | mbc1 | mbc1Ram | mbc1RamBattery =>
      have built := BankController.new_eq (whole.imageBanks_pos rfl) memoryBanks
      rw [← memory] at built ⊢
      exact congrArg some built

/-- A controller that is built again finds the banks that there are. -/
theorem reset_eq {unit : CartridgeUnit} (whole : unit.cartridge.Whole) :
    unit.reset = ofCartridge unit.cartridge.reset := by
  rcases unit with ⟨image, memory, kind, controller?⟩
  cases controller? with
  | none => rfl
  | some controller =>
      have built := BankController.new_eq (whole.imageBanks_pos rfl) whole.memoryBanks_pos
      have size : (Array.replicate memory.size (0 : UInt8)).size = memory.size :=
        Array.size_replicate
      refine CartridgeUnit.ext rfl rfl rfl ((congrArg some built).trans ?_)
      simp only [ofCartridge, cartridge, Cartridge.reset, Cartridge.memoryBanks, size]
      rfl

end CartridgeUnit

/-! ## The board -/

/-- A serial link that knows whether to log the bytes that are sent. -/
@[ext] structure SerialUnit where
  serial : Serial
  logsBytes : Bool

namespace SerialUnit

/-- Reset the link.  Whether it logs was decided when it was built. -/
def reset (unit : SerialUnit) : SerialUnit :=
  { unit with serial := unit.serial.reset }

def write (unit : SerialUnit) (register : SerialRegister) (byte : UInt8) : SerialUnit :=
  { unit with serial := unit.serial.write register byte }

end SerialUnit

/-- A board whose parts keep something for themselves. -/
@[ext] structure Circuit where
  cartridge : CartridgeUnit
  bootImage : Option BootImage
  bootActive : Bool
  workMemory : Vector UInt8 0x2000
  highMemory : Vector UInt8 127
  video : VideoUnit
  timer : Timer
  joypad : Joypad
  serial : SerialUnit
  interrupts : InterruptControl
  transferPage : UInt8

namespace Circuit

/-- The board that can be seen. -/
def board (circuit : Circuit) : Board where
  cartridge := circuit.cartridge.cartridge
  bootImage := circuit.bootImage
  bootActive := circuit.bootActive
  workMemory := circuit.workMemory
  highMemory := circuit.highMemory
  video := circuit.video.video
  timer := circuit.timer
  joypad := circuit.joypad
  serial := circuit.serial.serial
  interrupts := circuit.interrupts
  transferPage := circuit.transferPage

def new (config : Config) : Circuit where
  cartridge := .absent
  bootImage := none
  bootActive := false
  workMemory := Vector.replicate 0x2000 0
  highMemory := Vector.replicate 127 0
  video := .new config.shades
  timer := Timer.initial
  joypad := Joypad.initial
  serial := ⟨Serial.initial, config.logsSerial⟩
  interrupts := InterruptControl.initial
  transferPage := 0

/-- Clear the memories and the registers and reset the devices. -/
def reset (circuit : Circuit) : Circuit :=
  { circuit with
    cartridge := circuit.cartridge.reset
    bootActive := circuit.bootImage.isSome
    workMemory := Vector.replicate 0x2000 0
    highMemory := Vector.replicate 127 0
    video := circuit.video.reset
    timer := Timer.initial
    joypad := Joypad.initial
    serial := circuit.serial.reset
    interrupts := InterruptControl.initial
    transferPage := 0 }

def insertCartridge (circuit : Circuit) (cartridge : CartridgeUnit) : Circuit :=
  { circuit with cartridge := cartridge }

def insertBoot (circuit : Circuit) (image : BootImage) : Circuit :=
  { circuit with bootImage := some image, bootActive := true }

/-! ## Accesses -/

def readImage (circuit : Circuit) (address : UInt16) : UInt8 :=
  if circuit.bootActive && Word.high address == 0 then
    match circuit.bootImage with
    | none => circuit.cartridge.readImage address
    | some image => image.get (Word.low address).toFin
  else circuit.cartridge.readImage address

/-- What is read from a place.  Only the cartridge is asked in its own way. -/
def readLocation (circuit : Circuit) (location : Location) : UInt8 :=
  match location with
  | .image address => circuit.readImage address
  | .cartridgeMemory address => circuit.cartridge.readMemory address
  | _ => circuit.board.readLocation location

def read (circuit : Circuit) (address : UInt16) : UInt8 :=
  circuit.readLocation (.ofAddress address)

def request (circuit : Circuit) (requests : UInt8) : Circuit :=
  { circuit with interrupts := circuit.interrupts.request requests }

def transferByte (page : UInt8) (circuit : Circuit) (offset : SpriteOffset) : Circuit :=
  let byte := circuit.read (Word.ofBytes page (UInt8.ofNat offset.val))
  { circuit with video := circuit.video.mapVideo fun video => video.writeOam offset byte }

def transfer (circuit : Circuit) (page : UInt8) : Circuit :=
  (List.finRange 160).foldl (transferByte page) { circuit with transferPage := page }

def store {size : Nat} (memory : Vector UInt8 size) (offset : Fin size) (byte : UInt8) :
    Vector UInt8 size :=
  memory.set offset.val byte offset.isLt

def writeLocation (circuit : Circuit) (location : Location) (byte : UInt8) : Circuit :=
  match location with
  | .image address => { circuit with cartridge := circuit.cartridge.writeImage address byte }
  | .videoMemory offset =>
      { circuit with video := circuit.video.mapVideo fun video => video.writeVram offset byte }
  | .cartridgeMemory address =>
      { circuit with cartridge := circuit.cartridge.writeMemory address byte }
  | .workMemory offset =>
      { circuit with workMemory := store circuit.workMemory offset byte }
  | .spriteMemory offset =>
      { circuit with video := circuit.video.mapVideo fun video => video.writeOam offset byte }
  | .joypad => { circuit with joypad := circuit.joypad.write byte }
  | .serial register => { circuit with serial := circuit.serial.write register byte }
  | .timer register => { circuit with timer := circuit.timer.write register byte }
  | .interruptRequests => { circuit with interrupts := circuit.interrupts.writeRequests byte }
  | .video register =>
      let written := circuit.video.writeRegister register byte
      { circuit with video := written.1 }.request written.2
  | .transfer => circuit.transfer byte
  | .bootSwitch => { circuit with bootActive := false }
  | .highMemory offset =>
      { circuit with highMemory := store circuit.highMemory offset byte }
  | .interruptPermissions =>
      { circuit with interrupts := { circuit.interrupts with permissions := byte } }
  | .nowhere => circuit

def write (circuit : Circuit) (address : UInt16) (byte : UInt8) : Circuit :=
  circuit.writeLocation (.ofAddress address) byte

instance : Bus Circuit where
  read circuit address := (circuit.read address, circuit)
  write := write

def advance (circuit : Circuit) (timing : Timing) : Circuit :=
  let shown := circuit.video.step timing.clocks
  let counted := circuit.timer.step timing.machine
  { circuit with video := shown.1, timer := counted.1 }.request (shown.2 ||| counted.2)

def setButton (circuit : Circuit) (button : Button) (held : Bool) : Circuit :=
  let changed := circuit.joypad.setButton button held
  { circuit with joypad := changed.1 }.request changed.2

/-! ## What is kept follows from the rest -/

/-- The circuit that shows this and keeps what belongs to it. -/
def ofBoard (board : Board) (logsBytes : Bool) (indices : IndexLine) : Circuit where
  cartridge := .ofCartridge board.cartridge
  bootImage := board.bootImage
  bootActive := board.bootActive
  workMemory := board.workMemory
  highMemory := board.highMemory
  video := .ofVideo board.video indices
  timer := board.timer
  joypad := board.joypad
  serial := ⟨board.serial, logsBytes⟩
  interrupts := board.interrupts
  transferPage := board.transferPage

@[simp] theorem board_ofBoard (board : Board) (logsBytes : Bool) (indices : IndexLine) :
    (ofBoard board logsBytes indices).board = board := by
  rw [Circuit.board, ofBoard, CartridgeUnit.cartridge_ofCartridge]
  rfl

theorem new_eq (config : Config) :
    new config =
      ofBoard (.empty config.shades) config.logsSerial (Vector.replicate 160 0) := by
  rw [new, VideoUnit.new_eq]
  rfl

/-- Of what a circuit keeps, a reset leaves what belongs to the board that is reset, and
the answer about the log. -/
theorem reset_eq {circuit : Circuit} (whole : circuit.board.cartridge.Whole) :
    circuit.reset =
      ofBoard circuit.board.reset circuit.serial.logsBytes (Vector.replicate 160 0) := by
  rw [reset, CartridgeUnit.reset_eq whole, VideoUnit.reset_eq]
  rfl

section Accesses

variable (board : Board) (logsBytes : Bool) (indices : IndexLine)

theorem readLocation_ofBoard (location : Location) :
    (ofBoard board logsBytes indices).readLocation location = board.readLocation location := by
  cases location with
  | image address =>
      change (ofBoard board logsBytes indices).readImage address = board.readImage address
      rw [readImage, Board.readImage, ← CartridgeUnit.readImage_ofCartridge]
      rfl
  | cartridgeMemory address => exact CartridgeUnit.readMemory_ofCartridge board.cartridge address
  | _ => rfl

theorem read_ofBoard (address : UInt16) :
    (ofBoard board logsBytes indices).read address = board.read address :=
  readLocation_ofBoard board logsBytes indices (.ofAddress address)

theorem transfer_ofBoard (page : UInt8) :
    (ofBoard board logsBytes indices).transfer page =
      ofBoard (board.transfer page) logsBytes indices := by
  have copied (offsets : List SpriteOffset) (board : Board) :
      offsets.foldl (transferByte page) (ofBoard board logsBytes indices) =
        ofBoard (offsets.foldl (Board.transferByte page) board) logsBytes indices := by
    induction offsets generalizing board with
    | nil => rfl
    | cons offset offsets inductionHypothesis =>
        rw [List.foldl_cons, List.foldl_cons, transferByte, read_ofBoard]
        exact inductionHypothesis (board.transferByte page offset)
  exact copied _ { board with transferPage := page }

theorem writeLocation_ofBoard (location : Location) (byte : UInt8) :
    (ofBoard board logsBytes indices).writeLocation location byte =
      ofBoard (board.writeLocation location byte) logsBytes indices := by
  cases location with
  | image address =>
      exact congrArg (insertCartridge (ofBoard board logsBytes indices))
        (CartridgeUnit.writeImage_ofCartridge board.cartridge address byte)
  | cartridgeMemory address =>
      exact congrArg (insertCartridge (ofBoard board logsBytes indices))
        (CartridgeUnit.writeMemory_ofCartridge board.cartridge address byte)
  | video register =>
      have written := VideoUnit.writeRegister_ofVideo board.video indices register byte
      exact congrArg (fun written : VideoUnit × UInt8 =>
        { ofBoard board logsBytes indices with video := written.1 }.request written.2) written
  | transfer => exact transfer_ofBoard board logsBytes indices byte
  | _ => rfl

theorem write_ofBoard (address : UInt16) (byte : UInt8) :
    (ofBoard board logsBytes indices).write address byte =
      ofBoard (board.write address byte) logsBytes indices :=
  writeLocation_ofBoard board logsBytes indices (.ofAddress address) byte

/-- Time passes as if nothing had been kept, but for the indices of a line. -/
theorem exists_advance_ofBoard (timing : Timing) :
    ∃ last, (ofBoard board logsBytes indices).advance timing =
      ofBoard (board.advance timing) logsBytes last := by
  rcases VideoUnit.exists_step_ofVideo board.video indices timing.clocks with ⟨last, shown⟩
  refine ⟨last, ?_⟩
  exact congrArg (fun shown : VideoUnit × UInt8 =>
    { ofBoard board logsBytes indices with
      video := shown.1
      timer := (board.timer.step timing.machine).1 }.request
        (shown.2 ||| (board.timer.step timing.machine).2)) shown

end Accesses

/-- The processor sees the board, whatever else is kept. -/
def view (logsBytes : Bool) (indices : IndexLine) : BusView Board Circuit where
  see board := ofBoard board logsBytes indices
  read_see board address :=
    congrArg (·, ofBoard board logsBytes indices) (read_ofBoard board logsBytes indices address)
  write_see board address byte := write_ofBoard board logsBytes indices address byte

end Circuit

end Dmg
