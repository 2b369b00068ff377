import Dmg.Text.Numeral
import Mathlib.Data.List.Forall2
import Mathlib.Data.Nat.Digits.Defs

/-!
# Which texts are numerals

A numeral has a sign or none, at least one digit, and a value that the limit allows.  What
is read from it is this value.  Of a text that is no numeral the first character that does
not fit decides what is wrong with it, and neither what follows nor a later excess has a
part in that.
-/

namespace Dmg

namespace Text

/-! ## Digits -/

/-- Characters that are digits of a base, and the number that they make up.  The highest
digit is the first one. -/
def AreDigits (base : Nat) (digits : List Char) (value : Nat) : Prop :=
  ∃ values, List.Forall₂ (fun digit value => digitValue? base digit = some value) digits values ∧
    value = Nat.ofDigits base values.reverse

/-- What digits make of the number that stands before them. -/
def continued (base start : Nat) (values : List Nat) : Nat :=
  values.foldl (fun value digit => value * base + digit) start

theorem continued_zero (base : Nat) (values : List Nat) :
    continued base 0 values = Nat.ofDigits base values.reverse := by
  rw [Nat.ofDigits_eq_foldr, List.foldr_reverse]
  simp only [continued, Nat.cast_id, Nat.mul_comm, Nat.add_comm]

theorem digitValue?_lt {base : Nat} {digit : Char} {value : Nat}
    (found : digitValue? base digit = some value) : value < base := by
  rw [digitValue?, Option.filter_eq_some_iff] at found
  exact of_decide_eq_true found.2

/-- Further digits do not make a number smaller. -/
theorem le_continued {base start : Nat} {digits : List Char} {values : List Nat}
    (found : List.Forall₂ (fun digit value => digitValue? base digit = some value) digits values) :
    start <= continued base start values := by
  induction found generalizing start with
  | nil => exact Nat.le_refl start
  | @cons digit value digits values first rest inductionHypothesis =>
      have positive : 1 <= base := Nat.lt_of_le_of_lt (Nat.zero_le _) (digitValue?_lt first)
      calc start
        _ <= start * base := Nat.le_mul_of_pos_right start positive
        _ <= start * base + value := Nat.le_add_right _ _
        _ <= continued base (start * base + value) values := inductionHypothesis

theorem readDigits_eq_ok_iff {base limit start value : Nat} {digits : List Char}
    (within : start <= limit) :
    readDigits base limit start digits = .ok value ↔
      ∃ values,
        List.Forall₂ (fun digit value => digitValue? base digit = some value) digits values ∧
          value = continued base start values ∧ value <= limit := by
  induction digits generalizing start with
  | nil =>
      simp only [readDigits, Except.ok.injEq, List.forall₂_nil_left_iff, exists_eq_left, continued,
        List.foldl_nil]
      omega
  | cons digit digits inductionHypothesis =>
      simp only [readDigits, List.forall₂_cons_left_iff]
      cases found : digitValue? base digit with
      | none => simp
      | some next =>
          dsimp only
          split
          · next beyond =>
            constructor
            · intro read
              cases read
            · rintro ⟨_, ⟨_, values, same, others, rfl⟩, rfl, allowed⟩
              cases same
              have grown : start * base + next <= continued base (start * base + next) values :=
                le_continued others
              change continued base (start * base + next) values <= limit at allowed
              omega
          · next allowed =>
            rw [inductionHypothesis (Nat.not_lt.mp allowed)]
            constructor
            · rintro ⟨values, others, rest⟩
              exact ⟨next :: values, ⟨next, values, rfl, others, rfl⟩, rest⟩
            · rintro ⟨_, ⟨_, values, same, others, rfl⟩, rest⟩
              cases same
              exact ⟨values, others, rest⟩

/-- Where reading digits stops: at the first character that is no digit, or with which the
number passes the limit. -/
def StopsAt (base limit value : Nat) (character : Char) (cause : NumeralError) : Prop :=
  (digitValue? base character = none ∧ cause = .invalidDigit) ∨
    ∃ digit, digitValue? base character = some digit ∧ limit < value * base + digit ∧
      cause = .tooLarge

theorem readDigits_eq_error_iff {base limit start : Nat} {digits : List Char}
    {cause : NumeralError} (within : start <= limit) :
    readDigits base limit start digits = .error cause ↔
      ∃ early character late values, digits = early ++ character :: late ∧
        List.Forall₂ (fun digit value => digitValue? base digit = some value) early values ∧
          continued base start values <= limit ∧
            StopsAt base limit (continued base start values) character cause := by
  induction digits generalizing start with
  | nil => simp [readDigits]
  | cons digit digits inductionHypothesis =>
      rw [readDigits]
      cases found : digitValue? base digit with
      | none =>
          constructor
          · rintro ⟨⟩
            exact ⟨[], digit, digits, [], rfl, .nil, within, Or.inl ⟨found, rfl⟩⟩
          · rintro ⟨early, character, late, values, split, read, allowed, stops⟩
            cases read with
            | nil =>
                cases split
                rcases stops with ⟨-, rfl⟩ | ⟨other, same, -⟩
                · rfl
                · rw [found] at same
                  cases same
            | cons first rest =>
                cases split
                rw [found] at first
                cases first
      | some next =>
          dsimp only
          split
          · next beyond =>
            constructor
            · rintro ⟨⟩
              exact ⟨[], digit, digits, [], rfl, .nil, within, Or.inr ⟨next, found, beyond, rfl⟩⟩
            · rintro ⟨early, character, late, values, split, read, allowed, stops⟩
              cases read with
              | nil =>
                  cases split
                  rcases stops with ⟨none, -⟩ | ⟨-, -, -, rfl⟩
                  · rw [found] at none
                    cases none
                  · rfl
              | @cons _ value _ values first rest =>
                  cases split
                  rw [found] at first
                  cases first
                  have grown : start * base + next <= continued base (start * base + next) values :=
                    le_continued rest
                  change continued base (start * base + next) values <= limit at allowed
                  omega
          · next allowed =>
            rw [inductionHypothesis (Nat.not_lt.mp allowed)]
            constructor
            · rintro ⟨early, character, late, values, rfl, read, rest⟩
              exact ⟨digit :: early, character, late, next :: values, rfl, .cons found read, rest⟩
            · rintro ⟨early, character, late, values, split, read, small, stops⟩
              cases read with
              | nil =>
                  cases split
                  rcases stops with ⟨none, -⟩ | ⟨other, same, beyond, -⟩
                  · rw [found] at none
                    cases none
                  · rw [found] at same
                    cases same
                    exact absurd beyond allowed
              | @cons _ value early values first rest =>
                  cases split
                  rw [found] at first
                  cases first
                  exact ⟨early, character, late, values, rfl, rest, small, stops⟩

/-! ## Numerals -/

/-- A text and what follows the sign that it may have. -/
inductive Unsigned : List Char -> List Char -> Prop where
  | plus (digits : List Char) : Unsigned ('+' :: digits) digits
  | plain {digits : List Char} (none : digits.head? ≠ some '+') : Unsigned digits digits

/-- A text is a numeral with the given value. -/
def IsNumeral (base limit : Nat) (text : List Char) (value : Nat) : Prop :=
  ∃ digits, Unsigned text digits ∧ digits ≠ [] ∧ AreDigits base digits value ∧ value <= limit

/-- A text is no numeral, for the given reason. -/
inductive IsRefused (base limit : Nat) : List Char -> NumeralError -> Prop where
  | empty : IsRefused base limit [] .empty
  | sign : IsRefused base limit ['+'] .invalidDigit
  /-- What stands before the character that does not fit can be parsed. -/
  | stops {text early late : List Char} {character : Char} {value : Nat} {cause : NumeralError}
      (body : Unsigned text (early ++ character :: late)) (read : AreDigits base early value)
      (within : value <= limit) (here : StopsAt base limit value character cause) :
      IsRefused base limit text cause

theorem unsigned_unique {text first second : List Char} (one : Unsigned text first)
    (other : Unsigned text second) : first = second := by
  cases one with
  | plus =>
      cases other with
      | plus => rfl
      | plain none => exact absurd rfl none
  | plain none =>
      cases other with
      | plus => exact absurd rfl none
      | plain => rfl

/-- A text is empty or a sign alone, or it is read as its digits are. -/
theorem readNumeral_cases (base limit : Nat) (text : List Char) :
    (text = [] ∧ readNumeral base limit text = .error .empty) ∨
      (text = ['+'] ∧ readNumeral base limit text = .error .invalidDigit) ∨
      ∃ digits, Unsigned text digits ∧ digits ≠ [] ∧
        readNumeral base limit text = readDigits base limit 0 digits := by
  rw [readNumeral.eq_def]
  split
  · exact Or.inl ⟨rfl, rfl⟩
  · exact Or.inr (Or.inl ⟨rfl, rfl⟩)
  · next digits filled => exact Or.inr (Or.inr ⟨digits, .plus digits, filled, rfl⟩)
  · next filled _ signless =>
    refine Or.inr (Or.inr ⟨text, .plain ?_, filled, rfl⟩)
    intro sign
    rcases List.head?_eq_some_iff.mp sign with ⟨digits, same⟩
    exact signless digits same

/-- Exactly the numerals are read, each as its value. -/
theorem readNumeral_eq_ok_iff {base limit value : Nat} {text : List Char} :
    readNumeral base limit text = .ok value ↔ IsNumeral base limit text value := by
  unfold IsNumeral AreDigits
  rcases readNumeral_cases base limit text with
    ⟨rfl, read⟩ | ⟨rfl, read⟩ | ⟨digits, body, filled, read⟩
  · rw [read]
    constructor
    · rintro ⟨⟩
    · rintro ⟨digits, body, filled, -⟩
      cases body
      exact absurd rfl filled
  · rw [read]
    constructor
    · rintro ⟨⟩
    · rintro ⟨digits, body, filled, -⟩
      exact absurd (unsigned_unique body (.plus [])) filled
  · rw [read, readDigits_eq_ok_iff (Nat.zero_le _)]
    simp only [continued_zero]
    constructor
    · rintro ⟨values, found, same, within⟩
      exact ⟨digits, body, filled, ⟨values, found, same⟩, within⟩
    · rintro ⟨other, same, -, ⟨values, found, equal⟩, within⟩
      rw [← unsigned_unique body same] at found
      exact ⟨values, found, equal, within⟩

/-- Every other text is refused, for the first thing that is wrong with it. -/
theorem readNumeral_eq_error_iff {base limit : Nat} {text : List Char} {cause : NumeralError} :
    readNumeral base limit text = .error cause ↔ IsRefused base limit text cause := by
  rcases readNumeral_cases base limit text with
    ⟨rfl, read⟩ | ⟨rfl, read⟩ | ⟨digits, body, filled, read⟩
  · rw [read]
    constructor
    · rintro ⟨⟩
      exact .empty
    · intro refused
      cases refused with
      | empty => rfl
      | stops body => exact absurd (unsigned_unique body (.plain (by decide))) (by simp)
  · rw [read]
    constructor
    · rintro ⟨⟩
      exact .sign
    · intro refused
      cases refused with
      | sign => rfl
      | stops body => exact absurd (unsigned_unique body (.plus [])) (by simp)
  · rw [read, readDigits_eq_error_iff (Nat.zero_le _)]
    simp only [continued_zero]
    constructor
    · rintro ⟨early, character, late, values, rfl, found, within, here⟩
      exact .stops body ⟨values, found, rfl⟩ within here
    · intro refused
      cases refused with
      | empty =>
          cases body
          exact absurd rfl filled
      | sign => exact absurd (unsigned_unique body (.plus [])) filled
      | stops other read within here =>
          rcases read with ⟨values, found, rfl⟩
          exact ⟨_, _, _, values, unsigned_unique body other, found, within, here⟩

end Text

end Dmg
