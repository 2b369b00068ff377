import Dmg.Cartridge.Mbc1
import Dmg.Text.Hex

/-!
# Cartridges

A cartridge is an image that never changes, memory of its own, and perhaps a
bank controller.  What it is made of stands in the header of the image, and an
image that says something else than the machine can serve is refused before
anything is done with it.
-/

namespace Dmg

inductive ImageError where
  /-- The image is not a whole number of banks that a cartridge can have. -/
  | size (bytes : Nat)
  /-- The header names a controller that is not known. -/
  | controller (code : UInt8)
  /-- The image for the start of the machine has the wrong length. -/
  | bootSize (bytes : Nat)
  deriving DecidableEq, Repr

namespace ImageError

def message : ImageError -> String
  | size bytes =>
      "unsupported cartridge size: " ++ toString bytes ++
        " bytes (expected 32 KiB * 2^n, n = 0..=8)"
  | controller code => "unsupported cartridge controller type 0x" ++ Text.hexByte code
  | bootSize bytes => "boot image must be exactly 256 bytes, got " ++ toString bytes

end ImageError

/-- The kinds of cartridge that a header can name. -/
inductive CartridgeKind where
  | romOnly
  | mbc1
  | mbc1Ram
  | mbc1RamBattery
  deriving DecidableEq, Repr

namespace CartridgeKind

/-- The kind that a header byte names. -/
def ofCode? (code : UInt8) : Option CartridgeKind :=
  if code = 0 then some romOnly
  else if code = 1 then some mbc1
  else if code = 2 then some mbc1Ram
  else if code = 3 then some mbc1RamBattery
  else none

def name : CartridgeKind -> String
  | romOnly => "ROM ONLY"
  | mbc1 => "MBC1"
  | mbc1Ram => "MBC1+RAM"
  | mbc1RamBattery => "MBC1+RAM+BATTERY"

/-- The controller of a cartridge when power comes on, if its kind has one. -/
def controller? : CartridgeKind -> Option Mbc1
  | romOnly => none
  | mbc1 | mbc1Ram | mbc1RamBattery => some .initial

end CartridgeKind

/-- An image with the memory of its own that its header asks for.  A controller maps banks
of both into the ranges of the cartridge; without one they are there as they are. -/
@[ext] structure Cartridge where
  image : ByteArray
  memory : Array UInt8
  kind : CartridgeKind
  controller? : Option Mbc1

/-- What there is to say about a cartridge. -/
structure CartridgeInfo where
  title : String
  kind : CartridgeKind
  imageSize : Nat
  memorySize : Nat
  deriving DecidableEq, Repr

namespace Cartridge

def titleOffset : Nat := 0x134
def titleLength : Nat := 16
def kindOffset : Nat := 0x147
def memoryOffset : Nat := 0x149

/-- What is read where nothing answers. -/
def openBus : UInt8 := 0xFF

@[inline] def imageByte (image : ByteArray) (offset : Nat) : UInt8 :=
  if inside : offset < image.size then image[offset] else openBus

/-- A slot without a cartridge: no image, and one bank of memory. -/
def absent : Cartridge where
  image := ByteArray.empty
  memory := Array.replicate Mbc1.memoryBankSize 0
  kind := .romOnly
  controller? := none

instance : Inhabited Cartridge := ⟨absent⟩

def imageSizes : List Nat :=
  (List.range 9).map fun doublings => 0x8000 <<< doublings

/-- The banks of memory that a header byte stands for. -/
def memoryBanksOfCode (code : UInt8) : Nat :=
  if code = 3 then 4
  else if code = 4 then 16
  else if code = 5 then 8
  else 1

/-- The cartridge of an image, unless the image is refused. -/
def ofImage (image : ByteArray) : Except ImageError Cartridge :=
  if imageSizes.contains image.size then
    match CartridgeKind.ofCode? (imageByte image kindOffset) with
    | none => .error (.controller (imageByte image kindOffset))
    | some kind =>
        let banks := memoryBanksOfCode (imageByte image memoryOffset)
        .ok
          { image := image
            memory := Array.replicate (banks * Mbc1.memoryBankSize) 0
            kind := kind
            controller? := kind.controller? }
  else .error (.size image.size)

def isLoaded (cartridge : Cartridge) : Bool :=
  cartridge.image.size != 0

/-- The cartridge when power comes on: its memory is blank and its controller
starts over. -/
def reset (cartridge : Cartridge) : Cartridge :=
  { cartridge with
    memory := Array.replicate cartridge.memory.size 0
    controller? := cartridge.controller?.map fun _ => .initial }

@[inline] def imageBanks (cartridge : Cartridge) : Nat :=
  cartridge.image.size / Mbc1.imageBankSize

@[inline] def memoryBanks (cartridge : Cartridge) : Nat :=
  cartridge.memory.size / Mbc1.memoryBankSize

/-- The byte at an address of the image range. -/
@[inline] def readImage (cartridge : Cartridge) (address : UInt16) : UInt8 :=
  match cartridge.controller? with
  | none => imageByte cartridge.image address.toNat
  | some mbc => imageByte cartridge.image (mbc.imageOffset cartridge.imageBanks address)

/-- A write to the image range programs the controller and changes no image. -/
def writeImage (cartridge : Cartridge) (address : UInt16) (byte : UInt8) : Cartridge :=
  { cartridge with
    controller? := cartridge.controller?.map fun mbc => mbc.write address byte }

/-- Where an address of the memory range is in the memory, if anything answers. -/
@[inline] def offset? (cartridge : Cartridge) (address : UInt16) : Option Nat :=
  match cartridge.controller? with
  | none => some (address.toNat % Mbc1.memoryBankSize)
  | some mbc => mbc.memoryOffset cartridge.memoryBanks address

/-- The byte at an address of the memory range. -/
def readMemory (cartridge : Cartridge) (address : UInt16) : UInt8 :=
  match cartridge.offset? address with
  | none => openBus
  | some offset => cartridge.memory.getD offset openBus

/-- Store a byte at an address of the memory range, if anything takes it. -/
def writeMemory (cartridge : Cartridge) (address : UInt16) (byte : UInt8) : Cartridge :=
  match cartridge.offset? address with
  | none => cartridge
  | some offset => { cartridge with memory := cartridge.memory.setIfInBounds offset byte }

def titleCharacter (byte : UInt8) : Char :=
  if 0x20 <= byte ∧ byte < 0x7F then Char.ofNat byte.toNat else '?'

/-- The characters of a title without the blanks at its end. -/
def trimTitle (title : List Char) : List Char :=
  (title.reverse.dropWhile (· == ' ')).reverse

/-- The title in the header, up to the first zero byte. -/
def title (cartridge : Cartridge) : String :=
  let field := (List.range titleLength).map fun index =>
    imageByte cartridge.image (titleOffset + index)
  String.ofList (trimTitle ((field.takeWhile (· != 0)).map titleCharacter))

/-- What the header says, for a slot with a cartridge in it. -/
def info (cartridge : Cartridge) : CartridgeInfo where
  title := cartridge.title
  kind := cartridge.kind
  imageSize := cartridge.image.size
  memorySize := cartridge.memory.size

end Cartridge

end Dmg
