import Dmg.Bus

/-!
# Flat memory

One byte of storage for each address and nothing else: no bank, no device and
no address that a write does not reach.
-/

namespace Dmg

/-- A byte for each address. -/
structure FlatMemory where
  bytes : Vector UInt8 65536

namespace FlatMemory

/-- Memory that holds the same byte everywhere. -/
def filled (byte : UInt8) : FlatMemory :=
  ⟨Vector.replicate 65536 byte⟩

@[inline] def get (memory : FlatMemory) (address : UInt16) : UInt8 :=
  have inside : address.toNat < 65536 := address.toNat_lt
  memory.bytes[address.toNat]

@[inline] def set (memory : FlatMemory) (address : UInt16) (byte : UInt8) : FlatMemory :=
  ⟨memory.bytes.set address.toNat byte address.toNat_lt⟩

@[simp] theorem get_filled (byte : UInt8) (address : UInt16) :
    (filled byte).get address = byte := by
  simp [filled, get]

theorem get_set (memory : FlatMemory) (written address : UInt16) (byte : UInt8) :
    (memory.set written byte).get address =
      if written = address then byte else memory.get address := by
  simp only [get, set, Vector.getElem_set, UInt16.toNat_inj]

/-- Store bytes at successive addresses, the first address after the last. -/
def setAll (memory : FlatMemory) (address : UInt16) : List UInt8 -> FlatMemory
  | [] => memory
  | byte :: rest => (memory.set address byte).setAll (address + 1) rest

def getAll (memory : FlatMemory) (address : UInt16) : Nat -> List UInt8
  | 0 => []
  | count + 1 => memory.get address :: memory.getAll (address + 1) count

instance : Bus FlatMemory where
  read memory address := (memory.get address, memory)
  write := set

end FlatMemory

end Dmg
