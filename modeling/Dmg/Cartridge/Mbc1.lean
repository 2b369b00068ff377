import Dmg.Word

/-!
# The bank controller

A cartridge may hold more memory than its address range shows.  The controller
decides which bank of 16 KiB of the image, and which bank of 8 KiB of the
cartridge's own memory, is seen there.  It is programmed by writes to the range
of the image.
-/

namespace Dmg

/-- The registers of the controller. -/
@[ext] structure Mbc1 where
  /-- Five bits that choose the bank in the upper half of the image range; never
  zero. -/
  low : UInt8
  /-- Two further bits, for either memory. -/
  high : UInt8
  /-- Whether the cartridge's own memory answers. -/
  isOpen : Bool
  /-- Whether the two further bits also move the lower half of the image range
  and the cartridge's own memory. -/
  isAdvanced : Bool
  deriving DecidableEq, Repr

namespace Mbc1

def imageBankSize : Nat := 0x4000

/-- The size of a bank of the cartridge's own memory. -/
def memoryBankSize : Nat := 0x2000

def initial : Mbc1 := ⟨1, 0, false, false⟩

instance : Inhabited Mbc1 := ⟨initial⟩

/-- The bank in the lower half of the image range, among as many as there are. -/
def lowerBank (mbc : Mbc1) (banks : Nat) : Nat :=
  if mbc.isAdvanced then mbc.high.toNat * 32 % banks else 0

/-- The bank in the upper half of the image range. -/
def upperBank (mbc : Mbc1) (banks : Nat) : Nat :=
  (mbc.high.toNat * 32 + mbc.low.toNat) % banks

/-- The bank of the cartridge's own memory. -/
def memoryBank (mbc : Mbc1) (banks : Nat) : Nat :=
  if mbc.isAdvanced then mbc.high.toNat % banks else 0

/-- Where an address of the image range is in an image of so many banks. -/
def imageOffset (mbc : Mbc1) (banks : Nat) (address : UInt16) : Nat :=
  let bank := if address < 0x4000 then mbc.lowerBank banks else mbc.upperBank banks
  bank * imageBankSize + address.toNat % imageBankSize

/-- Where an address of the memory range is in a memory of so many banks, unless
the memory is closed. -/
def memoryOffset (mbc : Mbc1) (banks : Nat) (address : UInt16) : Option Nat :=
  if mbc.isOpen then
    some (mbc.memoryBank banks * memoryBankSize + address.toNat % memoryBankSize)
  else none

/-- Program the controller; each quarter of the image range is a register. -/
def write (mbc : Mbc1) (address : UInt16) (byte : UInt8) : Mbc1 :=
  if address < 0x2000 then { mbc with isOpen := byte &&& 0x0F == 0x0A }
  else if address < 0x4000 then
    { mbc with low := if byte &&& 0x1F = 0 then 1 else byte &&& 0x1F }
  else if address < 0x6000 then { mbc with high := byte &&& 0x03 }
  else { mbc with isAdvanced := byte &&& 0x01 != 0 }

end Mbc1

end Dmg
