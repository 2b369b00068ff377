import Dmg.Bus

/-!
# Recorded accesses

A memory together with every access that was made to it.  What a processor does
to the memory inside is what it would do to that memory alone.
-/

namespace Dmg

/-- One byte that crossed the bus. -/
inductive Access where
  | read (address : UInt16) (byte : UInt8)
  | write (address : UInt16) (byte : UInt8)
  deriving DecidableEq, Repr

namespace Access

def address : Access -> UInt16
  | read address _ => address
  | write address _ => address

def written? : Access -> Option (UInt16 × UInt8)
  | read _ _ => none
  | write address byte => some (address, byte)

end Access

/-- A memory and the accesses made to it, the latest one first. -/
structure Recorded (Memory : Type) where
  memory : Memory
  accesses : List Access

namespace Recorded

variable {Memory : Type} [Bus Memory]

def start (memory : Memory) : Recorded Memory :=
  ⟨memory, []⟩

/-- What was written, in the order of the writes. -/
def writes (recorded : Recorded Memory) : List (UInt16 × UInt8) :=
  recorded.accesses.reverse.filterMap Access.written?

instance : Bus (Recorded Memory) where
  read recorded address :=
    let found := Bus.read recorded.memory address
    (found.1, ⟨found.2, .read address found.1 :: recorded.accesses⟩)
  write recorded address byte :=
    ⟨Bus.write recorded.memory address byte, .write address byte :: recorded.accesses⟩

end Recorded

end Dmg
