import Mathlib.Data.Nat.Digits.Lemmas

/-!
# Adding digit by digit

Two numbers are added from their lowest digits up, each sum handing a carry to the next
one.  Read the other way round the same sums take one number off another: what was taken
off and what is left make up what was there, and the carry is what had to be borrowed.
-/

namespace Dmg

namespace Digits

/-- The digits of two numbers and of a third, lowest first, add up one by one, with a
carry that goes into the first sum, from each sum into the next one, and out of the
last. -/
inductive AddUp (base : Nat) : Bool -> List Nat -> List Nat -> List Nat -> Bool -> Prop where
  | done (carry : Bool) : AddUp base carry [] [] [] carry
  | digit {carry next last : Bool} {first second total : Nat} {firsts seconds totals : List Nat}
      (here : first + second + carry.toNat = total + base * next.toNat)
      (rest : AddUp base next firsts seconds totals last) :
      AddUp base carry (first :: firsts) (second :: seconds) (total :: totals) last

variable {base : Nat} {carry last : Bool} {firsts seconds totals : List Nat}

theorem AddUp.length_eq (adds : AddUp base carry firsts seconds totals last) :
    firsts.length = totals.length := by
  induction adds with
  | done => rfl
  | digit here rest inductionHypothesis =>
      rw [List.length_cons, List.length_cons, inductionHypothesis]

/-- Where one addition has ended another one goes on with its carry. -/
theorem AddUp.append {middle : Bool} {firsts' seconds' totals' : List Nat}
    (low : AddUp base carry firsts seconds totals middle)
    (high : AddUp base middle firsts' seconds' totals' last) :
    AddUp base carry (firsts ++ firsts') (seconds ++ seconds') (totals ++ totals') last := by
  induction low with
  | done => exact high
  | digit here rest inductionHypothesis => exact .digit here (inductionHypothesis high)

/-- The numbers add up as their digits do. -/
theorem AddUp.ofDigits (adds : AddUp base carry firsts seconds totals last) :
    Nat.ofDigits base firsts + Nat.ofDigits base seconds + carry.toNat =
      Nat.ofDigits base totals + base ^ totals.length * last.toNat := by
  induction adds with
  | done carry =>
      rw [Nat.ofDigits_nil, List.length_nil, pow_zero, one_mul]
  | @digit carry next last first second total firsts seconds totals here rest
      inductionHypothesis =>
      simp only [Nat.ofDigits_cons, List.length_cons, pow_succ']
      calc
        first + base * Nat.ofDigits base firsts + (second + base * Nat.ofDigits base seconds) +
            carry.toNat
        _ = first + second + carry.toNat +
              base * (Nat.ofDigits base firsts + Nat.ofDigits base seconds) := by ring
        _ = total + base * (Nat.ofDigits base firsts + Nat.ofDigits base seconds +
              next.toNat) := by
            rw [here]
            ring
        _ = total + base * (Nat.ofDigits base totals + base ^ totals.length * last.toNat) := by
            rw [inductionHypothesis]
        _ = total + base * Nat.ofDigits base totals + base * base ^ totals.length * last.toNat := by
            ring

/-- Where the totals are digits they are those of the sum, and the last carry is what
does not fit. -/
theorem AddUp.sum (adds : AddUp base carry firsts seconds totals last)
    (digits : ∀ total ∈ totals, total < base) (many : 1 < base) :
    Nat.ofDigits base totals =
        (Nat.ofDigits base firsts + Nat.ofDigits base seconds + carry.toNat) %
          base ^ totals.length ∧
      (last = true ↔ base ^ totals.length <=
        Nat.ofDigits base firsts + Nat.ofDigits base seconds + carry.toNat) := by
  have fits : Nat.ofDigits base totals < base ^ totals.length :=
    Nat.ofDigits_lt_base_pow_length many fun total member => digits total member
  rw [adds.ofDigits]
  constructor
  · rw [Nat.add_mul_mod_self_left, Nat.mod_eq_of_lt fits]
  · cases last with
    | false => simp only [Bool.toNat_false, Nat.mul_zero, Nat.add_zero, Bool.false_eq_true,
        false_iff, Nat.not_le, fits]
    | true => simp only [Bool.toNat_true, Nat.mul_one, Nat.le_add_left]

/-- Where the first summands are digits they are those of the difference, and the last
carry is what had to be borrowed for it. -/
theorem AddUp.difference (adds : AddUp base carry firsts seconds totals last)
    (digits : ∀ first ∈ firsts, first < base) (many : 1 < base) :
    ((Nat.ofDigits base firsts : Nat) : Int) =
        (((Nat.ofDigits base totals : Nat) : Int) - (Nat.ofDigits base seconds : Nat) -
          carry.toNat) % (base ^ firsts.length : Nat) ∧
      (last = true ↔ Nat.ofDigits base totals < Nat.ofDigits base seconds + carry.toNat) := by
  have fits : Nat.ofDigits base firsts < base ^ firsts.length :=
    Nat.ofDigits_lt_base_pow_length many fun first member => digits first member
  have whole := adds.ofDigits
  rw [← adds.length_eq] at whole
  generalize Nat.ofDigits base firsts = first at *
  generalize Nat.ofDigits base seconds = second at *
  generalize Nat.ofDigits base totals = total at *
  generalize base ^ firsts.length = bound at *
  have borrowed : (total : Int) - second - carry.toNat = first - bound * last.toNat := by
    have cast := congrArg (Nat.cast : Nat -> Int) whole
    push_cast at cast
    linarith
  constructor
  · rw [borrowed, Int.sub_mul_emod_self_left,
      Int.emod_eq_of_lt (Int.natCast_nonneg first) (Int.ofNat_lt.mpr fits)]
  · cases last with
    | false =>
        rw [Bool.toNat_false, Nat.mul_zero, Nat.add_zero] at whole
        constructor
        · intro none
          cases none
        · omega
    | true =>
        rw [Bool.toNat_true, Nat.mul_one] at whole
        constructor
        · omega
        · intro
          rfl

end Digits

end Dmg
