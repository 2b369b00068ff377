/-!
# Bytes and words

A word is two bytes.  The definitions below take it apart and put it together
again, and read one byte as a displacement, which is the only place where the
processor counts below zero.
-/

namespace Dmg

namespace Word

/-- The word with the given high and low bytes. -/
@[inline] def ofBytes (high low : UInt8) : UInt16 :=
  high.toUInt16 * 256 + low.toUInt16

@[inline] def high (word : UInt16) : UInt8 :=
  (word / 256).toUInt8

@[inline] def low (word : UInt16) : UInt8 :=
  word.toUInt8

theorem toNat_ofBytes (upper lower : UInt8) :
    (ofBytes upper lower).toNat = 256 * upper.toNat + lower.toNat := by
  have upperBound := upper.toNat_lt
  have lowerBound := lower.toNat_lt
  simp only [ofBytes, UInt16.toNat_add, UInt16.toNat_mul, UInt8.toNat_toUInt16,
    UInt16.toNat_ofNat, Nat.reducePow, Nat.reduceMod]
  omega

theorem toNat_high (word : UInt16) : (high word).toNat = word.toNat / 256 := by
  have bound := word.toNat_lt
  simp only [high, UInt16.toNat_toUInt8, UInt16.toNat_div, UInt16.toNat_ofNat, Nat.reducePow,
    Nat.reduceMod]
  omega

theorem toNat_low (word : UInt16) : (low word).toNat = word.toNat % 256 := by
  simp [low]

@[simp] theorem high_ofBytes (upper lower : UInt8) : high (ofBytes upper lower) = upper := by
  apply UInt8.toNat.inj
  have lowerBound := lower.toNat_lt
  rw [toNat_high, toNat_ofBytes]
  omega

@[simp] theorem low_ofBytes (upper lower : UInt8) : low (ofBytes upper lower) = lower := by
  apply UInt8.toNat.inj
  have lowerBound := lower.toNat_lt
  rw [toNat_low, toNat_ofBytes]
  omega

@[simp] theorem ofBytes_high_low (word : UInt16) : ofBytes (high word) (low word) = word := by
  apply UInt16.toNat.inj
  rw [toNat_ofBytes, toNat_high, toNat_low]
  omega

end Word

namespace Displacement

/-- A byte as a displacement between -128 and 127, in the wrapping arithmetic
of addresses. -/
@[inline] def toWord (byte : UInt8) : UInt16 :=
  if byte < 128 then byte.toUInt16 else byte.toUInt16 + 0xFF00

/-- The displacement as a number. -/
def toInt (byte : UInt8) : Int :=
  if byte < 128 then (byte.toNat : Int) else (byte.toNat : Int) - 256

end Displacement

end Dmg
