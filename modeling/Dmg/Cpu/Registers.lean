import Dmg.Word

/-!
# Registers

Eight byte registers, a stack pointer and a program counter.  The byte
registers also go by pairs.  The flags are the upper four bits of F; the lower
four carry no meaning, and a pair that is written into AF leaves them clear.
-/

namespace Dmg

/-- The four conditions that an operation may leave behind. -/
inductive Flag where
  | zero
  | subtract
  | halfCarry
  | carry
  deriving DecidableEq, Repr

namespace Flag

/-- The bit of F that holds a flag. -/
@[inline] def mask : Flag -> UInt8
  | zero => 0x80
  | subtract => 0x40
  | halfCarry => 0x20
  | carry => 0x10

/-- F with exactly the given flags raised. -/
@[inline] def pack (zeroSet subtractSet halfCarrySet carrySet : Bool) : UInt8 :=
  (if zeroSet then 0x80 else 0) ||| (if subtractSet then 0x40 else 0) |||
    (if halfCarrySet then 0x20 else 0) ||| (if carrySet then 0x10 else 0)

end Flag

@[ext] structure Registers where
  a : UInt8
  f : UInt8
  b : UInt8
  c : UInt8
  d : UInt8
  e : UInt8
  h : UInt8
  l : UInt8
  sp : UInt16
  pc : UInt16
  deriving DecidableEq, Repr

namespace Registers

/-- Every register at zero, as after power comes on. -/
def cleared : Registers :=
  ⟨0, 0, 0, 0, 0, 0, 0, 0, 0, 0⟩

/-- What the start-up program leaves behind when it hands over to a cartridge. -/
def afterBoot : Registers :=
  ⟨0x01, 0x90, 0x00, 0x13, 0x00, 0xD8, 0x01, 0x4D, 0xFFFE, 0x0100⟩

instance : Inhabited Registers := ⟨cleared⟩

/-- A and F as a pair, without the lower four bits of F. -/
@[inline] def af (registers : Registers) : UInt16 :=
  Word.ofBytes registers.a (registers.f &&& 0xF0)

@[inline] def bc (registers : Registers) : UInt16 :=
  Word.ofBytes registers.b registers.c

@[inline] def de (registers : Registers) : UInt16 :=
  Word.ofBytes registers.d registers.e

@[inline] def hl (registers : Registers) : UInt16 :=
  Word.ofBytes registers.h registers.l

@[inline] def setAf (registers : Registers) (word : UInt16) : Registers :=
  { registers with a := Word.high word, f := Word.low word &&& 0xF0 }

@[inline] def setBc (registers : Registers) (word : UInt16) : Registers :=
  { registers with b := Word.high word, c := Word.low word }

@[inline] def setDe (registers : Registers) (word : UInt16) : Registers :=
  { registers with d := Word.high word, e := Word.low word }

@[inline] def setHl (registers : Registers) (word : UInt16) : Registers :=
  { registers with h := Word.high word, l := Word.low word }

/-- Store what the start-up program leaves behind, whatever was there. -/
def handOver (registers : Registers) : Registers :=
  { (((registers.setAf 0x0190).setBc 0x0013).setDe 0x00D8).setHl 0x014D with
    sp := 0xFFFE
    pc := 0x0100 }

theorem handOver_eq (registers : Registers) : registers.handOver = afterBoot :=
  rfl

@[inline] def flag (registers : Registers) (flag : Flag) : Bool :=
  registers.f &&& flag.mask != 0

/-- Raise or lower one flag and leave the rest of F as it is. -/
@[inline] def setFlag (registers : Registers) (flag : Flag) (raised : Bool) : Registers :=
  { registers with
    f := if raised then registers.f ||| flag.mask else registers.f &&& ~~~flag.mask }

end Registers

end Dmg
