import Dmg.Word

/-!
# The bus

The processor reaches everything else through byte reads and byte writes.  A
read also returns the memory that follows it, so that an instance may keep a
record of what was read.
-/

namespace Dmg

/-- Something that answers the reads and takes the writes of a processor. -/
class Bus (Memory : Type) where
  read : Memory -> UInt16 -> UInt8 × Memory
  write : Memory -> UInt16 -> UInt8 -> Memory

namespace Bus

variable {Memory : Type} [Bus Memory]

/-- The word whose low byte is at the address.  The high byte is at the next
address, which after the last one is the first. -/
@[inline] def readWord (memory : Memory) (address : UInt16) : UInt16 × Memory :=
  let low := read memory address
  let high := read low.2 (address + 1)
  (Word.ofBytes high.1 low.1, high.2)

/-- Store a word where `readWord` finds it, its low byte first. -/
@[inline] def writeWord (memory : Memory) (address word : UInt16) : Memory :=
  write (write memory address (Word.low word)) (address + 1) (Word.high word)

end Bus

end Dmg
