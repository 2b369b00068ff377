import Dmg.Proofs.Bits
import Dmg.Proofs.Board.Ram
import Dmg.Proofs.Cpu.Accumulator
import Dmg.Proofs.Cpu.Digits

/-!
# Decimal numbers

A byte can hold two decimal digits, one in each half.  Binary arithmetic on two such
bytes leaves a byte that need not be one, and flags that tell what an adjustment has to
do about it: each half of A goes on by six where its digit has left the decimal range.
The adjustment of a difference sees this in the flags alone, that of a sum in the digits
as well.

The carry that an adjustment leaves belongs to the decimal digits, so the arithmetic on
the next two bytes can go on with it.  In this way numbers of any length are added and
taken off each other, two digits at a time, and nothing that a program does between two
links of such a chain matters as long as the carry is kept.
-/

namespace Dmg

namespace Decimal

/-! ## Bytes of decimal digits -/

/-- A byte holds two decimal digits, one in each half. -/
def IsPacked (byte : UInt8) : Prop :=
  byte.toNat / 16 <= 9 ∧ byte.toNat % 16 <= 9

instance (byte : UInt8) : Decidable (IsPacked byte) :=
  inferInstanceAs (Decidable (_ ∧ _))

/-- The number that two digits stand for. -/
def value (byte : UInt8) : Nat :=
  10 * (byte.toNat / 16) + byte.toNat % 16

/-- The number that bytes stand for, the lowest digits first. -/
def number (bytes : List UInt8) : Nat :=
  Nat.ofDigits 100 (bytes.map value)

/-- The byte that holds the last two digits of a number. -/
def pack (number : Nat) : UInt8 :=
  UInt8.ofNat (16 * (number / 10 % 10) + number % 10)

/-- So many bytes that hold the last digits of a number, the lowest digits first. -/
def packAll : Nat -> Nat -> List UInt8
  | 0, _ => []
  | count + 1, number => pack number :: packAll count (number / 100)

theorem value_lt {byte : UInt8} (packed : IsPacked byte) : value byte < 100 := by
  rcases packed with ⟨upper, lower⟩
  unfold value
  omega

theorem values_lt {bytes : List UInt8} (packed : ∀ byte ∈ bytes, IsPacked byte) :
    ∀ digits ∈ bytes.map value, digits < 100 := by
  intro digits member
  rcases List.mem_map.mp member with ⟨byte, inside, rfl⟩
  exact value_lt (packed byte inside)

/-- Two digits in front of others are found again. -/
theorem pack_value {byte : UInt8} (packed : IsPacked byte) (rest : Nat) :
    pack (value byte + 100 * rest) = byte := by
  rcases packed with ⟨upper, lower⟩
  apply UInt8.toNat.inj
  unfold pack value
  rw [UInt8.toNat_ofNat']
  omega

/-- Bytes of decimal digits are those of the number that they stand for. -/
theorem packAll_number {bytes : List UInt8} (packed : ∀ byte ∈ bytes, IsPacked byte) :
    packAll bytes.length (number bytes) = bytes := by
  induction bytes with
  | nil => rfl
  | cons byte bytes inductionHypothesis =>
      rcases List.forall_mem_cons.mp packed with ⟨first, others⟩
      have whole : number (byte :: bytes) = value byte + 100 * number bytes := by
        unfold number
        rw [List.map_cons, Nat.ofDigits_cons]
      have rest : (value byte + 100 * number bytes) / 100 = number bytes := by
        have small := value_lt first
        omega
      rw [List.length_cons, whole, packAll, pack_value first, rest, inductionHypothesis others]

/-! ## Six more or six less -/

/-- Where the digits of a sum have left the decimal range, six more in that half make
them the last digits of the sum, and the upper half tells whether the sum has a third
digit. -/
theorem adjusted_sum {first second carry a : Nat} {lower upper : Bool}
    (firstUpper : first / 16 <= 9) (firstLower : first % 16 <= 9)
    (secondUpper : second / 16 <= 9) (secondLower : second % 16 <= 9) (small : carry <= 1)
    (lowerLeaves : lower = true ↔
      15 < first % 16 + second % 16 + carry ∨ 9 < (first + second + carry) % 256 % 16)
    (upperLeaves : upper = true ↔
      255 < first + second + carry ∨ 153 < (first + second + carry) % 256)
    (moved : a = ((first + second + carry) % 256 + (6 * lower.toNat + 96 * upper.toNat)) % 256) :
    a / 16 <= 9 ∧ a % 16 <= 9 ∧
      10 * (first / 16) + first % 16 + (10 * (second / 16) + second % 16) + carry =
        10 * (a / 16) + a % 16 + 100 * upper.toNat := by
  cases lower <;> cases upper <;>
    simp only [Bool.toNat_false, Bool.toNat_true, Bool.false_eq_true, false_iff, true_iff]
      at lowerLeaves upperLeaves moved ⊢ <;>
    omega

/-- Where a digit of a difference was borrowed for, six less in that half make up for the
sixteen that binary arithmetic borrows instead of ten. -/
theorem adjusted_difference {first second borrow a : Nat} {lower upper : Bool}
    (firstUpper : first / 16 <= 9) (firstLower : first % 16 <= 9)
    (secondUpper : second / 16 <= 9) (secondLower : second % 16 <= 9) (small : borrow <= 1)
    (lowerLeaves : lower = true ↔ first % 16 < second % 16 + borrow)
    (upperLeaves : upper = true ↔ first < second + borrow)
    (moved : a = ((first + 512 - second - borrow) % 256 + 256 -
      (6 * lower.toNat + 96 * upper.toNat)) % 256) :
    a / 16 <= 9 ∧ a % 16 <= 9 ∧
      10 * (a / 16) + a % 16 + (10 * (second / 16) + second % 16) + borrow =
        10 * (first / 16) + first % 16 + 100 * upper.toNat := by
  cases lower <;> cases upper <;>
    simp only [Bool.toNat_false, Bool.toNat_true, Bool.false_eq_true, false_iff, true_iff]
      at lowerLeaves upperLeaves moved ⊢ <;>
    omega

end Decimal

namespace Registers

open Decimal (IsPacked value)

/-! ## What an adjustment does -/

/-- Whether an adjustment moves the lower half of A. -/
def movesLower (registers : Registers) : Bool :=
  registers.flag .halfCarry || (!registers.flag .subtract && 9 < registers.a % 16)

/-- Whether an adjustment moves the upper half of A. -/
def movesUpper (registers : Registers) : Bool :=
  registers.flag .carry || (!registers.flag .subtract && 0x99 < registers.a)

theorem decimalCorrection_eq (registers : Registers) :
    registers.decimalCorrection =
      (if registers.movesLower then 0x06 else 0) ||| (if registers.movesUpper then 0x60 else 0) :=
  rfl

theorem toNat_decimalCorrection (registers : Registers) :
    registers.decimalCorrection.toNat =
      6 * registers.movesLower.toNat + 96 * registers.movesUpper.toNat := by
  rw [decimalCorrection_eq]
  cases registers.movesLower <;> cases registers.movesUpper <;> rfl

/-- A sum goes up by the correction and a difference goes down by it. -/
theorem toNat_a_decimalAdjust (registers : Registers) :
    registers.decimalAdjust.a.toNat =
      if registers.flag .subtract then
        (registers.a.toNat + 256 - (6 * registers.movesLower.toNat +
          96 * registers.movesUpper.toNat)) % 256
      else
        (registers.a.toNat + (6 * registers.movesLower.toNat +
          96 * registers.movesUpper.toNat)) % 256 := by
  have moved : registers.decimalAdjust.a =
      if registers.flag .subtract then registers.a - registers.decimalCorrection
      else registers.a + registers.decimalCorrection := rfl
  have less := registers.decimalCorrection.toNat_lt
  rw [moved, ← toNat_decimalCorrection]
  split
  · rw [UInt8.toNat_sub]
    congr 1
    omega
  · rw [UInt8.toNat_add]

theorem flag_decimalAdjust (registers : Registers) (flag : Flag) :
    registers.decimalAdjust.flag flag =
      match flag with
      | .zero => registers.decimalAdjust.a == 0
      | .subtract => registers.flag .subtract
      | .halfCarry => false
      | .carry => registers.movesUpper := by
  have carry : decide (0x60 <= registers.decimalCorrection) = registers.movesUpper := by
    rw [decimalCorrection_eq]
    cases registers.movesLower <;> cases registers.movesUpper <;> rfl
  unfold decimalAdjust
  cases flag with
  | zero =>
      simp only [flag_setFlag, if_true]
      rfl
  | subtract =>
      simp only [flag_setFlag, reduceCtorEq, if_false]
      rfl
  | halfCarry => simp only [flag_setFlag, reduceCtorEq, if_false, if_true]
  | carry => simp only [flag_setFlag, reduceCtorEq, if_false, if_true, carry]

/-! ## One link of a chain -/

theorem toNat_a_adc (registers : Registers) (byte : UInt8) :
    (registers.combine .adc byte).a.toNat =
      (registers.a.toNat + byte.toNat + (registers.flag .carry).toNat) % 256 := by
  change (registers.a + byte + (registers.flag .carry).toUInt8).toNat = _
  rw [UInt8.toNat_add, UInt8.toNat_add, Bits.toNat_toUInt8]
  omega

theorem toNat_a_sbc (registers : Registers) (byte : UInt8) :
    (registers.combine .sbc byte).a.toNat =
      (registers.a.toNat + 512 - byte.toNat - (registers.flag .carry).toNat) % 256 := by
  have bound := byte.toNat_lt
  have small := (registers.flag .carry).toNat_le
  change (registers.a - byte - (registers.flag .carry).toUInt8).toNat = _
  rw [UInt8.toNat_sub, UInt8.toNat_sub, Bits.toNat_toUInt8]
  omega

/-- The adjusted sum of two bytes of decimal digits holds the last two digits of the sum
of their numbers, and the carry is its third digit. -/
theorem adjusted_adc {registers : Registers} {byte : UInt8} (first : IsPacked registers.a)
    (second : IsPacked byte) :
    let adjusted := (registers.combine .adc byte).decimalAdjust
    IsPacked adjusted.a ∧
      value registers.a + value byte + (registers.flag .carry).toNat =
        value adjusted.a + 100 * (adjusted.flag .carry).toNat := by
  intro adjusted
  let summed := registers.combine .adc byte
  let carry := registers.flag .carry
  have flags := flag_of_pack (show summed.f = Flag.pack _ _ _ _ from rfl)
  have small : carry.toNat <= 1 := carry.toNat_le
  have sum : summed.a.toNat = (registers.a.toNat + byte.toNat + carry.toNat) % 256 :=
    registers.toNat_a_adc byte
  have lower : summed.movesLower = true ↔
      15 < registers.a.toNat % 16 + byte.toNat % 16 + carry.toNat ∨
        9 < (registers.a.toNat + byte.toNat + carry.toNat) % 256 % 16 := by
    rw [movesLower, flags, flags, Bool.not_false, Bool.true_and, Bool.or_eq_true,
      decide_eq_true_iff, decide_eq_true_iff, UInt8.lt_iff_toNat_lt, UInt8.toNat_mod, sum]
    rfl
  have upper : summed.movesUpper = true ↔
      255 < registers.a.toNat + byte.toNat + carry.toNat ∨
        153 < (registers.a.toNat + byte.toNat + carry.toNat) % 256 := by
    rw [movesUpper, flags, flags, Bool.not_false, Bool.true_and, Bool.or_eq_true,
      decide_eq_true_iff, decide_eq_true_iff, UInt8.lt_iff_toNat_lt, sum]
    rfl
  have moved : adjusted.a.toNat = ((registers.a.toNat + byte.toNat + carry.toNat) % 256 +
      (6 * summed.movesLower.toNat + 96 * summed.movesUpper.toNat)) % 256 := by
    rw [toNat_a_decimalAdjust, flags, if_neg Bool.false_ne_true, sum]
  rcases Decimal.adjusted_sum first.1 first.2 second.1 second.2 small lower upper moved with
    ⟨packedUpper, packedLower, balance⟩
  refine ⟨⟨packedUpper, packedLower⟩, ?_⟩
  rw [flag_decimalAdjust]
  exact balance

/-- The adjusted difference of two bytes of decimal digits holds the last two digits of
the difference of their numbers, and the carry tells whether a hundred was borrowed. -/
theorem adjusted_sbc {registers : Registers} {byte : UInt8} (first : IsPacked registers.a)
    (second : IsPacked byte) :
    let adjusted := (registers.combine .sbc byte).decimalAdjust
    IsPacked adjusted.a ∧
      value adjusted.a + value byte + (registers.flag .carry).toNat =
        value registers.a + 100 * (adjusted.flag .carry).toNat := by
  intro adjusted
  let taken := registers.combine .sbc byte
  let borrow := registers.flag .carry
  have flags := flag_of_pack (show taken.f = Flag.pack _ _ _ _ from rfl)
  have small : borrow.toNat <= 1 := borrow.toNat_le
  have difference : taken.a.toNat =
      (registers.a.toNat + 512 - byte.toNat - borrow.toNat) % 256 :=
    registers.toNat_a_sbc byte
  have lower : taken.movesLower = true ↔
      registers.a.toNat % 16 < byte.toNat % 16 + borrow.toNat := by
    rw [movesLower, flags, flags, Bool.not_true, Bool.false_and, Bool.or_false,
      decide_eq_true_iff]
  have upper : taken.movesUpper = true ↔
      registers.a.toNat < byte.toNat + borrow.toNat := by
    rw [movesUpper, flags, flags, Bool.not_true, Bool.false_and, Bool.or_false,
      decide_eq_true_iff]
  have moved : adjusted.a.toNat =
      ((registers.a.toNat + 512 - byte.toNat - borrow.toNat) % 256 + 256 -
        (6 * taken.movesLower.toNat + 96 * taken.movesUpper.toNat)) % 256 := by
    rw [toNat_a_decimalAdjust, flags, if_pos rfl, difference]
  rcases Decimal.adjusted_difference first.1 first.2 second.1 second.2 small lower upper moved with
    ⟨packedUpper, packedLower, balance⟩
  refine ⟨⟨packedUpper, packedLower⟩, ?_⟩
  rw [flag_decimalAdjust]
  exact balance

end Registers

namespace Decimal

/-! ## Chains -/

variable {Memory : Type} [Bus Memory]

/-- Two instructions, one behind the other: the first combines the given byte in A with
another one, and the second adjusts what comes of it. -/
structure Link (arithmetic : Arithmetic) (first second : UInt8) (before after : Wired Memory) :
    Prop where
  a : before.registers.a = first
  combines : before.combined? = some (arithmetic, second)
  adjusts : before.step.2.operation? = some .decimalAdjust
  ends : before.step.2.step.2 = after

/-- A link leaves the adjusted byte in A, with its flags. -/
theorem Link.outcome {arithmetic : Arithmetic} {first second : UInt8}
    {before after : Wired Memory} (link : Link arithmetic first second before after) :
    let adjusted := (before.registers.combine arithmetic second).decimalAdjust
    after.registers.a = adjusted.a ∧ ∀ flag, after.registers.flag flag = adjusted.flag flag := by
  rcases Wired.step_of_combined link.combines with ⟨-, early, -, combined⟩
  rcases Wired.step_of_decimalAdjust link.adjusts with ⟨-, late, -, adjusted⟩
  rw [← link.ends, adjusted, combined]
  exact ⟨rfl, fun flag => rfl⟩

/-- Links one behind the other, each with a pair of bytes to combine.  The carry goes
into the first link, from each link into the next one, and out of the last; apart from
the carry, what is between two links is left open. -/
inductive Chain (arithmetic : Arithmetic) :
    Bool -> List (UInt8 × UInt8) -> List (Wired Memory) -> Bool -> Prop where
  | done (carry : Bool) : Chain arithmetic carry [] [] carry
  | link {carry last : Bool} {first second : UInt8} {before after : Wired Memory}
      {operands : List (UInt8 × UInt8)} {outcomes : List (Wired Memory)}
      (carried : before.registers.flag .carry = carry)
      (here : Link arithmetic first second before after)
      (rest : Chain arithmetic (after.registers.flag .carry) operands outcomes last) :
      Chain arithmetic carry ((first, second) :: operands) (after :: outcomes) last

/-- Two links are a chain where what is between them keeps the carry. -/
theorem Link.pair {arithmetic : Arithmetic} {carry last : Bool} {low high : UInt8 × UInt8}
    {before between next after : Wired Memory}
    (carried : before.registers.flag .carry = carry)
    (lower : Link arithmetic low.1 low.2 before between)
    (kept : next.registers.flag .carry = between.registers.flag .carry)
    (upper : Link arithmetic high.1 high.2 next after)
    (left : after.registers.flag .carry = last) :
    Chain arithmetic carry [low, high] [between, after] last := by
  rw [← left]
  exact .link carried lower (.link kept upper (.done _))

/-- What the links of a chain leave in A. -/
def results (outcomes : List (Wired Memory)) : List UInt8 :=
  outcomes.map fun outcome => outcome.registers.a

theorem Chain.length_eq {arithmetic : Arithmetic} {carry last : Bool}
    {operands : List (UInt8 × UInt8)} {outcomes : List (Wired Memory)}
    (chain : Chain arithmetic carry operands outcomes last) :
    (results outcomes).length = operands.length := by
  induction chain with
  | done => rfl
  | link carried here rest inductionHypothesis => exact congrArg Nat.succ inductionHypothesis

/-- Both bytes of each pair hold decimal digits. -/
def AllPacked (operands : List (UInt8 × UInt8)) : Prop :=
  ∀ operand ∈ operands, IsPacked operand.1 ∧ IsPacked operand.2

instance (operands : List (UInt8 × UInt8)) : Decidable (AllPacked operands) :=
  List.decidableBAll (fun operand : UInt8 × UInt8 => IsPacked operand.1 ∧ IsPacked operand.2)
    operands

/-- A chain of sums leaves digits that make up the sum. -/
theorem Chain.adc {carry last : Bool} {operands : List (UInt8 × UInt8)}
    {outcomes : List (Wired Memory)} (chain : Chain .adc carry operands outcomes last)
    (packed : AllPacked operands) :
    (∀ byte ∈ results outcomes, IsPacked byte) ∧
      Digits.AddUp 100 carry ((operands.map Prod.fst).map value) ((operands.map Prod.snd).map value)
        ((results outcomes).map value) last := by
  induction chain with
  | done carry =>
      refine ⟨?_, .done carry⟩
      intro byte member
      cases member
  | link carried here rest inductionHypothesis =>
      rcases List.forall_mem_cons.mp packed with ⟨⟨first, second⟩, others⟩
      rcases inductionHypothesis others with ⟨digits, adds⟩
      rcases here.outcome with ⟨a, flags⟩
      rw [← here.a] at first
      rcases Registers.adjusted_adc first second with ⟨digit, balance⟩
      rw [← a] at digit balance
      rw [← flags, here.a, carried] at balance
      exact ⟨List.forall_mem_cons.mpr ⟨digit, digits⟩, .digit balance adds⟩

/-- A chain of differences leaves digits that make up, with what was taken off, what was
there before. -/
theorem Chain.sbc {carry last : Bool} {operands : List (UInt8 × UInt8)}
    {outcomes : List (Wired Memory)} (chain : Chain .sbc carry operands outcomes last)
    (packed : AllPacked operands) :
    (∀ byte ∈ results outcomes, IsPacked byte) ∧
      Digits.AddUp 100 carry ((results outcomes).map value) ((operands.map Prod.snd).map value)
        ((operands.map Prod.fst).map value) last := by
  induction chain with
  | done carry =>
      refine ⟨?_, .done carry⟩
      intro byte member
      cases member
  | link carried here rest inductionHypothesis =>
      rcases List.forall_mem_cons.mp packed with ⟨⟨first, second⟩, others⟩
      rcases inductionHypothesis others with ⟨digits, adds⟩
      rcases here.outcome with ⟨a, flags⟩
      rw [← here.a] at first
      rcases Registers.adjusted_sbc first second with ⟨digit, balance⟩
      rw [← a] at digit balance
      rw [← flags, here.a, carried] at balance
      exact ⟨List.forall_mem_cons.mpr ⟨digit, digits⟩, .digit balance adds⟩

/-- A chain of sums leaves the last digits of the whole sum, and the carry of what does
not fit into them. -/
theorem Chain.results_adc {carry last : Bool} {operands : List (UInt8 × UInt8)}
    {outcomes : List (Wired Memory)} (chain : Chain .adc carry operands outcomes last)
    (packed : AllPacked operands) :
    let total := number (operands.map Prod.fst) + number (operands.map Prod.snd) + carry.toNat
    results outcomes = packAll operands.length (total % 100 ^ operands.length) ∧
      (last = true ↔ 100 ^ operands.length <= total) := by
  intro total
  rcases chain.adc packed with ⟨digits, adds⟩
  rcases adds.sum (values_lt digits) (by decide) with ⟨fits, overflow⟩
  rw [List.length_map, chain.length_eq] at fits overflow
  refine ⟨?_, overflow⟩
  calc
    results outcomes
    _ = packAll operands.length (number (results outcomes)) := by
        rw [← chain.length_eq, packAll_number digits]
    _ = packAll operands.length (total % 100 ^ operands.length) :=
        congrArg (packAll operands.length) fits

/-- A chain of differences leaves the last digits of the whole difference, and the carry
tells whether it would be below zero. -/
theorem Chain.results_sbc {carry last : Bool} {operands : List (UInt8 × UInt8)}
    {outcomes : List (Wired Memory)} (chain : Chain .sbc carry operands outcomes last)
    (packed : AllPacked operands) :
    let first := number (operands.map Prod.fst)
    let second := number (operands.map Prod.snd)
    results outcomes =
        packAll operands.length
          (((first : Int) - second - carry.toNat) % (100 ^ operands.length : Nat)).toNat ∧
      (last = true ↔ first < second + carry.toNat) := by
  intro first second
  rcases chain.sbc packed with ⟨digits, adds⟩
  rcases adds.difference (values_lt digits) (by decide) with ⟨left, underflow⟩
  rw [List.length_map, chain.length_eq] at left
  refine ⟨?_, underflow⟩
  calc
    results outcomes
    _ = packAll operands.length (number (results outcomes)) := by
        rw [← chain.length_eq, packAll_number digits]
    _ = packAll operands.length
          (((first : Int) - second - carry.toNat) % (100 ^ operands.length : Nat)).toNat := by
        apply congrArg (packAll operands.length)
        rw [← Int.toNat_natCast (number (results outcomes))]
        exact congrArg Int.toNat left

theorem flags_of_decimalAdjust {wired : Wired Memory}
    (adjusts : wired.operation? = some .decimalAdjust) :
    (∃ timing, wired.step.1 = .ok timing) ∧
      let adjusted := wired.step.2.registers
      adjusted.flag .halfCarry = false ∧
        adjusted.flag .subtract = wired.registers.flag .subtract ∧
        (adjusted.flag .zero = true ↔ adjusted.a = 0) := by
  rcases Wired.step_of_decimalAdjust adjusts with ⟨timing, pc, answered, registers⟩
  have flags (flag : Flag) : wired.step.2.registers.flag flag =
      wired.registers.decimalAdjust.flag flag := by
    rw [registers]
    rfl
  have a : wired.step.2.registers.a = wired.registers.decimalAdjust.a := by
    rw [registers]
  refine ⟨⟨timing, answered⟩, ?_⟩
  simp only [flags, a, Registers.flag_decimalAdjust, beq_iff_eq, true_and]

/-- Arithmetic on decimal digits is exact at any length.  A chain of sums leaves the last
digits of the sum of the two numbers and of the carry that went in, and raises the carry
where the sum has more digits than the numbers.  A chain of differences leaves the last
digits of the difference, and raises the carry where more was taken off than was there.
Neither instruction of a link fails, and every adjustment takes back the half carry, keeps
what it was told about the operation before it, and tells whether A is zero. -/
theorem chains_are_exact {carry last : Bool} {operands : List (UInt8 × UInt8)}
    {outcomes : List (Wired Memory)} (packed : AllPacked operands) :
    let first := number (operands.map Prod.fst)
    let second := number (operands.map Prod.snd)
    (Chain .adc carry operands outcomes last ->
      results outcomes =
          packAll operands.length ((first + second + carry.toNat) % 100 ^ operands.length) ∧
        (last = true ↔ 100 ^ operands.length <= first + second + carry.toNat)) ∧
    (Chain .sbc carry operands outcomes last ->
      results outcomes =
          packAll operands.length
            (((first : Int) - second - carry.toNat) % (100 ^ operands.length : Nat)).toNat ∧
        (last = true ↔ first < second + carry.toNat)) ∧
    (∀ (wired : Wired Memory) (arithmetic : Arithmetic) (byte : UInt8),
      wired.combined? = some (arithmetic, byte) -> ∃ timing, wired.step.1 = .ok timing) ∧
    (∀ wired : Wired Memory, wired.operation? = some .decimalAdjust ->
      (∃ timing, wired.step.1 = .ok timing) ∧
      let adjusted := wired.step.2.registers
      adjusted.flag .halfCarry = false ∧
        adjusted.flag .subtract = wired.registers.flag .subtract ∧
        (adjusted.flag .zero = true ↔ adjusted.a = 0)) := by
  intro first second
  refine ⟨?_, ?_, ?_, ?_⟩
  · intro chain
    exact chain.results_adc packed
  · intro chain
    exact chain.results_sbc packed
  · intro wired arithmetic byte combined
    rcases Wired.step_of_combined combined with ⟨timing, -, answered, -⟩
    exact ⟨timing, answered⟩
  · intro wired adjusts
    exact flags_of_decimalAdjust adjusts

/-- A program that combines 58 with one byte and 49 with another one. -/
def decimalProgram (opcode low high : UInt8) : Wired Board :=
  { cpu := { Cpu.afterBoot with
      registers := { Registers.afterBoot with a := 0x58, f := 0, pc := 0xC000 } }
    memory := (Board.empty .green).setAll 0xC000
      [opcode, low, 0x27, 0x3E, 0x49, opcode, high, 0x27] }

/-- 4958 and 5067 make 10025, and 5067 taken off 4958 leaves 9891 with a borrow. -/
theorem decimalProgram_is_exact :
    AllPacked [(0x58, 0x67), (0x49, 0x50)] ∧
      (∃ outcomes : List (Wired Board),
        Chain .adc false [(0x58, 0x67), (0x49, 0x50)] outcomes true ∧
          results outcomes = [0x25, 0x00]) ∧
      ∃ outcomes : List (Wired Board),
        Chain .sbc false [(0x58, 0x67), (0x49, 0x50)] outcomes true ∧
          results outcomes = [0x91, 0x98] := by
  have packed : AllPacked [(0x58, 0x67), (0x49, 0x50)] := by
    decide
  refine ⟨packed, ?_, ?_⟩
  · let start := decimalProgram 0xCE 0x67 0x50
    let between := start.step.2.step.2
    let next := between.step.2
    have lower : Link .adc 0x58 0x67 start between :=
      ⟨by decide +kernel, by decide +kernel, by decide +kernel, rfl⟩
    have upper : Link .adc 0x49 0x50 next next.step.2.step.2 :=
      ⟨by decide +kernel, by decide +kernel, by decide +kernel, rfl⟩
    have chain : Chain .adc false [(0x58, 0x67), (0x49, 0x50)]
        [between, next.step.2.step.2] true :=
      Link.pair (by decide +kernel) lower (by decide +kernel) upper (by decide +kernel)
    refine ⟨_, chain, ?_⟩
    rw [((chains_are_exact packed).1 chain).1]
    decide
  · let start := decimalProgram 0xDE 0x67 0x50
    let between := start.step.2.step.2
    let next := between.step.2
    have lower : Link .sbc 0x58 0x67 start between :=
      ⟨by decide +kernel, by decide +kernel, by decide +kernel, rfl⟩
    have upper : Link .sbc 0x49 0x50 next next.step.2.step.2 :=
      ⟨by decide +kernel, by decide +kernel, by decide +kernel, rfl⟩
    have chain : Chain .sbc false [(0x58, 0x67), (0x49, 0x50)]
        [between, next.step.2.step.2] true :=
      Link.pair (by decide +kernel) lower (by decide +kernel) upper (by decide +kernel)
    refine ⟨_, chain, ?_⟩
    rw [((chains_are_exact packed).2.1 chain).1]
    decide

end Decimal

end Dmg
