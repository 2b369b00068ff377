import Dmg.Cpu.Operation

/-!
# Arithmetic and logic

Each operation is given by the number it computes and by the flags that go with
it.  A carry is what does not fit into the result, and a half carry is what
does not fit into its lower half; for a difference both are borrows.
-/

namespace Dmg

namespace Arithmetic

@[inline] def sum (first second : UInt8) (carry : Bool) : UInt8 :=
  first + second + carry.toUInt8

@[inline] def sumFlags (first second : UInt8) (carry : Bool) : UInt8 :=
  Flag.pack (sum first second carry == 0) false
    (15 < first.toNat % 16 + second.toNat % 16 + carry.toNat)
    (255 < first.toNat + second.toNat + carry.toNat)

/-- The difference of two bytes, less a borrow. -/
@[inline] def difference (first second : UInt8) (borrow : Bool) : UInt8 :=
  first - second - borrow.toUInt8

@[inline] def differenceFlags (first second : UInt8) (borrow : Bool) : UInt8 :=
  Flag.pack (difference first second borrow == 0) true
    (first.toNat % 16 < second.toNat % 16 + borrow.toNat)
    (first.toNat < second.toNat + borrow.toNat)

end Arithmetic

namespace Registers

open Arithmetic (sum sumFlags difference differenceFlags)

def combine (registers : Registers) (operation : Arithmetic) (byte : UInt8) : Registers :=
  let a := registers.a
  let carry := registers.flag .carry
  match operation with
  | .add => { registers with a := sum a byte false, f := sumFlags a byte false }
  | .adc => { registers with a := sum a byte carry, f := sumFlags a byte carry }
  | .sub => { registers with a := difference a byte false, f := differenceFlags a byte false }
  | .sbc => { registers with a := difference a byte carry, f := differenceFlags a byte carry }
  | .and => { registers with a := a &&& byte, f := Flag.pack (a &&& byte == 0) false true false }
  | .xor => { registers with a := a ^^^ byte, f := Flag.pack (a ^^^ byte == 0) false false false }
  | .or => { registers with a := a ||| byte, f := Flag.pack (a ||| byte == 0) false false false }
  | .cp => { registers with f := differenceFlags a byte false }

/-- The flags after a byte has gone up by one; the carry is not touched. -/
def flagIncrement (registers : Registers) (byte : UInt8) : Registers :=
  ((registers.setFlag .zero (byte + 1 == 0)).setFlag .subtract false).setFlag .halfCarry
    (byte % 16 == 15)

/-- The flags after a byte has gone down by one; the carry is not touched. -/
def flagDecrement (registers : Registers) (byte : UInt8) : Registers :=
  ((registers.setFlag .zero (byte - 1 == 0)).setFlag .subtract true).setFlag .halfCarry
    (byte % 16 == 0)

/-- Add a word to HL.  The half carry is the one out of the lower twelve bits,
and the zero flag is not touched. -/
def addHl (registers : Registers) (word : UInt16) : Registers :=
  let hl := registers.hl
  (((registers.setFlag .subtract false).setFlag .halfCarry
    (0x0FFF < hl.toNat % 0x1000 + word.toNat % 0x1000)).setFlag .carry
      (0xFFFF < hl.toNat + word.toNat)).setHl (hl + word)

/-- The stack pointer plus a displacement. -/
@[inline] def stackOffset (registers : Registers) (byte : UInt8) : UInt16 :=
  registers.sp + Displacement.toWord byte

/-- The flags of a stack offset are those of the sum of its low bytes; zero and
subtract are lowered. -/
def flagStackOffset (registers : Registers) (byte : UInt8) : Registers :=
  { registers with
    f := Flag.pack false false
      (15 < registers.sp.toNat % 16 + byte.toNat % 16)
      (255 < registers.sp.toNat % 256 + byte.toNat) }

/-- How far a decimal adjustment moves A: by six for each digit that left the
decimal range, as the flags or, after a sum, the digit itself shows. -/
def decimalCorrection (registers : Registers) : UInt8 :=
  let afterSum := !registers.flag .subtract
  let lower := registers.flag .halfCarry || (afterSum && 9 < registers.a % 16)
  let upper := registers.flag .carry || (afterSum && 0x99 < registers.a)
  (if lower then 0x06 else 0) ||| (if upper then 0x60 else 0)

/-- Turn the result of binary arithmetic on two decimal digits into two decimal
digits. -/
def decimalAdjust (registers : Registers) : Registers :=
  let correction := registers.decimalCorrection
  let a :=
    if registers.flag .subtract then registers.a - correction else registers.a + correction
  (({ registers with a := a }.setFlag .carry (0x60 <= correction)).setFlag .halfCarry
    false).setFlag .zero (a == 0)

def complement (registers : Registers) : Registers :=
  ({ registers with a := ~~~registers.a }.setFlag .subtract true).setFlag .halfCarry true

/-- Put a value into the carry flag and lower the flags of a sum. -/
def putCarry (registers : Registers) (carry : Bool) : Registers :=
  ((registers.setFlag .subtract false).setFlag .halfCarry false).setFlag .carry carry

end Registers

namespace Rotation

/-- A rotated byte and the bit that goes to the carry. -/
def apply (rotation : Rotation) (carry : Bool) (byte : UInt8) : UInt8 × Bool :=
  let high := byte &&& 0x80 != 0
  let low := byte &&& 0x01 != 0
  match rotation with
  | rlc => ((byte <<< 1) ||| (if high then 0x01 else 0), high)
  | rrc => ((byte >>> 1) ||| (if low then 0x80 else 0), low)
  | rl => ((byte <<< 1) ||| (if carry then 0x01 else 0), high)
  | rr => ((byte >>> 1) ||| (if carry then 0x80 else 0), low)

end Rotation

namespace Shift

/-- A moved byte and the bit that goes to the carry. -/
def apply (shift : Shift) (carry : Bool) (byte : UInt8) : UInt8 × Bool :=
  match shift with
  | rotate rotation => rotation.apply carry byte
  | sla => (byte <<< 1, byte &&& 0x80 != 0)
  | sra => ((byte >>> 1) ||| (byte &&& 0x80), byte &&& 0x01 != 0)
  | swap => ((byte <<< 4) ||| (byte >>> 4), false)
  | srl => (byte >>> 1, byte &&& 0x01 != 0)

end Shift

namespace Registers

/-- Move the bits of a byte, and set all flags by the outcome. -/
def shift (registers : Registers) (shift : Shift) (byte : UInt8) : UInt8 × Registers :=
  let moved := shift.apply (registers.flag .carry) byte
  (moved.1, { registers with f := Flag.pack (moved.1 == 0) false false moved.2 })

/-- Rotate A.  Unlike the rotation of an operand this lowers the zero flag. -/
def rotateA (registers : Registers) (rotation : Rotation) : Registers :=
  let moved := rotation.apply (registers.flag .carry) registers.a
  { registers with a := moved.1, f := Flag.pack false false false moved.2 }

/-- The byte with only the given bit raised. -/
@[inline] def bitMask (index : Fin 8) : UInt8 :=
  (1 : UInt8) <<< UInt8.ofNat index.val

/-- Lower the zero flag if a byte has the given bit, and raise it if not. -/
def testBit (registers : Registers) (index : Fin 8) (byte : UInt8) : Registers :=
  ((registers.setFlag .zero (byte &&& bitMask index == 0)).setFlag .subtract false).setFlag
    .halfCarry true

end Registers

end Dmg
