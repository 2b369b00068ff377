/-!
# Numerals

A numeral is an optional plus sign and at least one digit.  It is read from the
left, and the first thing that is wrong with it is the error: a character that
is no digit of the base, or the digit with which the value passes the limit.
A minus sign is a character like any other, and so is a plus sign that nothing
follows.
-/

namespace Dmg

namespace Text

/-- Why a text is no numeral. -/
inductive NumeralError where
  /-- There is no text. -/
  | empty
  /-- A character is no digit of the base. -/
  | invalidDigit
  /-- The value passes the limit. -/
  | tooLarge
  deriving DecidableEq, Repr

namespace NumeralError

def message : NumeralError -> String
  | empty => "cannot parse integer from empty string"
  | invalidDigit => "invalid digit found in string"
  | tooLarge => "number too large to fit in target type"

end NumeralError

/-- The value of a digit, in either case, when the base has it. -/
def digitValue? (base : Nat) (digit : Char) : Option Nat :=
  let value :=
    if '0' <= digit ∧ digit <= '9' then some (digit.toNat - '0'.toNat)
    else if 'a' <= digit ∧ digit <= 'z' then some (digit.toNat - 'a'.toNat + 10)
    else if 'A' <= digit ∧ digit <= 'Z' then some (digit.toNat - 'A'.toNat + 10)
    else none
  value.filter (· < base)

/-- Continue a numeral whose digits so far have the given value. -/
def readDigits (base limit : Nat) : Nat -> List Char -> Except NumeralError Nat
  | value, [] => .ok value
  | value, digit :: rest =>
      match digitValue? base digit with
      | none => .error .invalidDigit
      | some next =>
          let extended := value * base + next
          if limit < extended then .error .tooLarge
          else readDigits base limit extended rest

/-- Read a numeral whose value is at most the limit. -/
def readNumeral (base limit : Nat) : List Char -> Except NumeralError Nat
  | [] => .error .empty
  | '+' :: [] => .error .invalidDigit
  | '+' :: digits => readDigits base limit 0 digits
  | digits => readDigits base limit 0 digits

end Text

end Dmg
