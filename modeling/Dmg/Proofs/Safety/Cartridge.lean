import Dmg.Proofs.Board.Reached
import Dmg.Proofs.Safety.Checked

/-!
# The checked cartridge

A cartridge finds a place in its image or its memory by the number of a bank, and the
number by a remainder.  The place is there because the banks are whole and there is at
least one of them.  A slot without an image is not looked into at all.
-/

namespace Dmg

namespace Mbc1

def lowerBank? (mbc : Mbc1) (banks : Nat) : Option Nat :=
  if mbc.isAdvanced then Checked.rem (mbc.high.toNat * 32) banks else some 0

def upperBank? (mbc : Mbc1) (banks : Nat) : Option Nat :=
  Checked.rem (mbc.high.toNat * 32 + mbc.low.toNat) banks

def memoryBank? (mbc : Mbc1) (banks : Nat) : Option Nat :=
  if mbc.isAdvanced then Checked.rem mbc.high.toNat banks else some 0

def imageOffset? (mbc : Mbc1) (banks : Nat) (address : UInt16) : Option Nat := do
  let bank <- (if address < 0x4000 then mbc.lowerBank? else mbc.upperBank?) banks
  some (bank * imageBankSize + address.toNat % imageBankSize)

theorem lowerBank?_eq {banks : Nat} (positive : 0 < banks) (mbc : Mbc1) :
    mbc.lowerBank? banks = some (mbc.lowerBank banks) := by
  rw [lowerBank?, lowerBank]
  split
  · exact Checked.rem_eq positive
  · rfl

theorem upperBank?_eq {banks : Nat} (positive : 0 < banks) (mbc : Mbc1) :
    mbc.upperBank? banks = some (mbc.upperBank banks) :=
  Checked.rem_eq positive

theorem memoryBank?_eq {banks : Nat} (positive : 0 < banks) (mbc : Mbc1) :
    mbc.memoryBank? banks = some (mbc.memoryBank banks) := by
  rw [memoryBank?, memoryBank]
  split
  · exact Checked.rem_eq positive
  · rfl

theorem imageOffset?_eq {banks : Nat} (positive : 0 < banks) (mbc : Mbc1) (address : UInt16) :
    mbc.imageOffset? banks address = some (mbc.imageOffset banks address) := by
  rw [imageOffset?, imageOffset]
  split
  · rw [lowerBank?_eq positive]
    rfl
  · rw [upperBank?_eq positive]
    rfl

end Mbc1

namespace Cartridge

def readImage? (cartridge : Cartridge) (address : UInt16) : Option UInt8 :=
  if cartridge.isLoaded then
    match cartridge.controller? with
    | none => cartridge.image[address.toNat]?
    | some mbc => do
        let offset <- mbc.imageOffset? cartridge.imageBanks address
        cartridge.image[offset]?
  else some openBus

/-- Program the controller.  A note is made of the banks that it then shows. -/
def writeImage? (cartridge : Cartridge) (address : UInt16) (byte : UInt8) : Option Cartridge :=
  match cartridge.controller? with
  | none => some (cartridge.writeImage address byte)
  | some mbc => do
      let _ <- (mbc.write address byte).upperBank? cartridge.imageBanks
      let _ <- (mbc.write address byte).memoryBank? cartridge.memoryBanks
      some (cartridge.writeImage address byte)

def place? (cartridge : Cartridge) (address : UInt16) : Option (Option Nat) :=
  match cartridge.controller? with
  | none => some (some (address.toNat % Mbc1.memoryBankSize))
  | some mbc =>
      if mbc.isOpen then do
        let bank <- mbc.memoryBank? cartridge.memoryBanks
        some (some (bank * Mbc1.memoryBankSize + address.toNat % Mbc1.memoryBankSize))
      else some none

def readMemory? (cartridge : Cartridge) (address : UInt16) : Option UInt8 := do
  match <- cartridge.place? address with
  | none => some openBus
  | some offset => cartridge.memory[offset]?

def writeMemory? (cartridge : Cartridge) (address : UInt16) (byte : UInt8) : Option Cartridge := do
  match <- cartridge.place? address with
  | none => some cartridge
  | some offset =>
      if inside : offset < cartridge.memory.size then
        some { cartridge with memory := cartridge.memory.set offset byte }
      else none

/-- The cartridge of an image, unless the image is refused.  The header is looked
into only when the length has been found right. -/
def ofImage? (image : ByteArray) : Option (Except ImageError Cartridge) :=
  if imageSizes.contains image.size then do
    let code <- image[kindOffset]?
    match CartridgeKind.ofCode? code with
    | none => some (.error (.controller code))
    | some kind => do
        let memoryCode <- image[memoryOffset]?
        some (.ok
          { image := image
            memory := Array.replicate (memoryBanksOfCode memoryCode * Mbc1.memoryBankSize) 0
            kind := kind
            controller? := kind.controller? })
  else some (.error (.size image.size))

theorem getElem?_image {image : ByteArray} {offset : Nat} (inside : offset < image.size) :
    image[offset]? = some (imageByte image offset) := by
  rw [getElem?_pos image offset inside, imageByte, dif_pos inside]

theorem ofImage?_eq (image : ByteArray) : ofImage? image = some (ofImage image) := by
  rw [ofImage?, ofImage]
  split
  · next listed =>
    rcases size_of_mem_imageSizes (List.contains_iff_mem.mp listed) with ⟨two, whole⟩
    have long : 0x8000 <= image.size := by omega
    have kind : kindOffset < image.size := Nat.lt_of_lt_of_le (by decide) long
    have memory : memoryOffset < image.size := Nat.lt_of_lt_of_le (by decide) long
    rw [getElem?_image kind, getElem?_image memory]
    dsimp only [Option.bind_eq_bind, Option.bind_some]
    cases CartridgeKind.ofCode? (imageByte image kindOffset) <;> rfl
  · rfl

theorem readImage?_eq {cartridge : Cartridge} (whole : cartridge.Whole) {address : UInt16}
    (below : address.toNat < 0x8000) :
    cartridge.readImage? address = some (cartridge.readImage address) := by
  rw [readImage?, readImage]
  split
  · next loaded =>
    cases controlled : cartridge.controller? with
    | none => exact getElem?_image (Nat.lt_of_lt_of_le below (whole.long_of_isLoaded loaded))
    | some mbc =>
        dsimp only
        rw [Mbc1.imageOffset?_eq (whole.imageBanks_pos controlled), Option.bind_eq_bind,
          Option.bind_some]
        exact getElem?_image (whole.imageOffset_lt controlled address)
  · next blank =>
    have none : cartridge.controller? = none := by
      cases controlled : cartridge.controller? with
      | none => rfl
      | some mbc => exact absurd (whole.isLoaded controlled) blank
    have size : cartridge.image.size = 0 := by
      rw [Cartridge.isLoaded, bne_iff_ne, not_not] at blank
      exact blank
    rw [none]
    dsimp only
    rw [imageByte, dif_neg (by omega)]

theorem writeImage?_eq {cartridge : Cartridge} (whole : cartridge.Whole) (address : UInt16)
    (byte : UInt8) :
    cartridge.writeImage? address byte = some (cartridge.writeImage address byte) := by
  rw [writeImage?]
  split
  · rfl
  · next mbc controlled =>
    rw [Mbc1.upperBank?_eq (whole.imageBanks_pos controlled),
      Mbc1.memoryBank?_eq whole.memoryBanks_pos]
    rfl

theorem place?_eq {cartridge : Cartridge} (whole : cartridge.Whole) (address : UInt16) :
    cartridge.place? address = some (cartridge.offset? address) := by
  rw [place?, offset?]
  cases cartridge.controller? with
  | none => rfl
  | some mbc =>
      dsimp only
      rw [Mbc1.memoryBank?_eq whole.memoryBanks_pos, Mbc1.memoryOffset]
      split <;> rfl

theorem readMemory?_eq {cartridge : Cartridge} (whole : cartridge.Whole)
    (address : UInt16) : cartridge.readMemory? address = some (cartridge.readMemory address) := by
  rw [readMemory?, place?_eq whole, readMemory]
  cases found : cartridge.offset? address with
  | none => rfl
  | some offset =>
      have inside := whole.offset_lt found
      dsimp only [Option.bind_eq_bind, Option.bind_some]
      rw [getElem?_pos cartridge.memory offset inside, Array.getD, dif_pos inside]
      rfl

theorem writeMemory?_eq {cartridge : Cartridge} (whole : cartridge.Whole)
    (address : UInt16) (byte : UInt8) :
    cartridge.writeMemory? address byte = some (cartridge.writeMemory address byte) := by
  rw [writeMemory?, place?_eq whole, writeMemory]
  cases found : cartridge.offset? address with
  | none => rfl
  | some offset =>
      have inside := whole.offset_lt found
      dsimp only [Option.bind_eq_bind, Option.bind_some]
      rw [dif_pos inside, Array.setIfInBounds, dif_pos inside]

end Cartridge

end Dmg
