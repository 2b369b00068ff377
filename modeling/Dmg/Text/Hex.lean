import Dmg.Word

/-!
# Hexadecimal text

Bytes and words are written with a fixed number of upper-case digits, so the
width of a text never depends on the value that it shows.
-/

namespace Dmg

namespace Text

/-- The digit of a value below sixteen. -/
def hexDigit (value : Nat) : Char :=
  if value < 10 then Char.ofNat (48 + value) else Char.ofNat (55 + value)

/-- The lowest digits of a value, as many as asked for, highest digit first. -/
def hexDigits : Nat -> Nat -> List Char
  | 0, _ => []
  | width + 1, value => hexDigits width (value / 16) ++ [hexDigit (value % 16)]

theorem length_hexDigits (width value : Nat) : (hexDigits width value).length = width := by
  induction width generalizing value with
  | zero => rfl
  | succ width inductionHypothesis => simp [hexDigits, inductionHypothesis]

/-- Two digits. -/
def hexByte (byte : UInt8) : String :=
  String.ofList (hexDigits 2 byte.toNat)

/-- Four digits. -/
def hexWord (word : UInt16) : String :=
  String.ofList (hexDigits 4 word.toNat)

end Text

end Dmg
