import Mathlib.Data.Nat.Bitwise

/-!
# Bits and numbers

Laws of the bits of a byte, and what becomes of the number that a byte stands for when its
bits move up or down by one.
-/

namespace Dmg

namespace Bits

theorem and_or_distrib (first second third : UInt8) :
    (first ||| second) &&& third = first &&& third ||| second &&& third := by
  apply UInt8.toBitVec_inj.mp
  rw [UInt8.toBitVec_and, UInt8.toBitVec_or, UInt8.toBitVec_or, UInt8.toBitVec_and,
    UInt8.toBitVec_and, BitVec.and_or_distrib_right]

theorem and_right_comm (first second third : UInt8) :
    first &&& second &&& third = first &&& third &&& second := by
  rw [UInt8.and_assoc, UInt8.and_comm second third, ← UInt8.and_assoc]

theorem or_right_comm (first second third : UInt8) :
    first ||| second ||| third = first ||| third ||| second := by
  rw [UInt8.or_assoc, UInt8.or_comm second third, ← UInt8.or_assoc]

theorem toNat_toUInt8 (carry : Bool) : carry.toUInt8.toNat = carry.toNat := by
  cases carry <;> rfl

/-- A byte has a bit where its number has it. -/
theorem and_two_pow_ne_zero (byte : UInt8) {index : Nat} (inside : index < 8) :
    (byte &&& UInt8.ofNat (2 ^ index) != 0) = byte.toNat.testBit index := by
  have fits : 2 ^ index < 256 := Nat.pow_lt_pow_right (by decide) inside
  rw [bne, ← Bool.not_not (byte.toNat.testBit index)]
  congr 1
  rw [Bool.eq_iff_iff, beq_iff_eq, ← UInt8.toNat_inj, UInt8.toNat_and, UInt8.toNat_ofNat',
    Nat.mod_eq_of_lt fits, Nat.and_two_pow]
  cases byte.toNat.testBit index <;> simp

/-! ## Moving up -/

theorem toNat_shiftLeft_one (byte : UInt8) : (byte <<< 1).toNat = 2 ^ 1 * (byte.toNat % 128) := by
  have whole : (byte <<< 1).toNat = byte.toNat * 2 ^ 1 % 2 ^ 8 := by
    rw [UInt8.toNat_shiftLeft, Nat.shiftLeft_eq]
    rfl
  omega

theorem toNat_shiftLeft_one_or (byte : UInt8) (carry : Bool) :
    (byte <<< 1 ||| if carry then 0x01 else 0).toNat = 2 * (byte.toNat % 128) + carry.toNat := by
  cases carry with
  | false =>
      rw [if_neg Bool.false_ne_true, UInt8.or_zero, toNat_shiftLeft_one]
      rfl
  | true =>
      rw [if_pos rfl, UInt8.toNat_or, toNat_shiftLeft_one, UInt8.toNat_one,
        ← Nat.two_pow_add_eq_or_of_lt (by decide)]
      rfl

/-- Moving up by one bit doubles the number.  What no longer fits is the bit that falls out. -/
theorem double_eq (byte : UInt8) (carry : Bool) :
    byte.toNat + byte.toNat + carry.toNat =
      (byte <<< 1 ||| if carry then 0x01 else 0).toNat + 256 * (byte &&& 0x80 != 0).toNat := by
  have top : (byte &&& 0x80 != 0) = byte.toNat.testBit 7 :=
    and_two_pow_ne_zero byte (show 7 < 8 by decide)
  have bit : (byte.toNat.testBit 7).toNat = byte.toNat / 128 % 2 := Nat.toNat_testBit byte.toNat 7
  have bound := byte.toNat_lt
  rw [toNat_shiftLeft_one_or, top, bit]
  omega

/-! ## Moving down -/

theorem toNat_shiftRight_one (byte : UInt8) : (byte >>> 1).toNat = byte.toNat / 2 := by
  rw [UInt8.toNat_shiftRight, UInt8.toNat_ofNat, Nat.shiftRight_eq_div_pow]

theorem toNat_shiftRight_one_or (byte : UInt8) (carry : Bool) :
    (byte >>> 1 ||| if carry then 0x80 else 0).toNat = byte.toNat / 2 + 128 * carry.toNat := by
  have bound := byte.toNat_lt
  cases carry with
  | false =>
      rw [if_neg Bool.false_ne_true, UInt8.or_zero, toNat_shiftRight_one]
      rfl
  | true =>
      have top : (0x80 : UInt8).toNat = 2 ^ 7 * 1 := rfl
      have small : byte.toNat / 2 < 2 ^ 7 := by omega
      rw [if_pos rfl, UInt8.toNat_or, toNat_shiftRight_one, top, Nat.or_comm,
        ← Nat.two_pow_add_eq_or_of_lt small]
      exact Nat.add_comm _ _

/-- Moving down by one bit halves the number.  What is left over is the bit that falls out. -/
theorem halve_eq (byte : UInt8) (carry : Bool) :
    (byte >>> 1 ||| if carry then 0x80 else 0).toNat +
        (byte >>> 1 ||| if carry then 0x80 else 0).toNat + (byte &&& 0x01 != 0).toNat =
      byte.toNat + 256 * carry.toNat := by
  have low : (byte &&& 0x01 != 0) = byte.toNat.testBit 0 :=
    and_two_pow_ne_zero byte (show 0 < 8 by decide)
  have bit : (byte.toNat.testBit 0).toNat = byte.toNat / 1 % 2 := Nat.toNat_testBit byte.toNat 0
  rw [toNat_shiftRight_one_or, low, bit]
  omega

end Bits

end Dmg
