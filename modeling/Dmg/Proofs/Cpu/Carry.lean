import Dmg.Proofs.Cpu.Digits
import Dmg.Proofs.Cpu.Encoding

/-!
# Numbers of many bytes

A byte is a digit to the base 256.  What does not fit into one digit goes to the carry, and
the next instruction takes it from there, so that numbers of any length are added, taken off
each other, doubled and halved, one byte at a time.  Adding, subtracting and doubling begin
with the lowest byte, and halving with the highest one.

Between two links of such a chain a program moves its bytes and its pointers along and counts
the bytes that are left.  It may do whatever keeps the carry.  All loads do this but one: the
load of HL with the stack pointer and an offset sets the flags of a sum.
-/

namespace Dmg

/-! ## Bytes as digits -/

namespace Bytes

/-- The number that bytes stand for, the lowest byte first. -/
def number (bytes : List UInt8) : Nat :=
  Nat.ofDigits 256 (bytes.map UInt8.toNat)

/-- So many bytes that hold the last digits of a number, the lowest byte first. -/
def ofNumber : Nat -> Nat -> List UInt8
  | 0, _ => []
  | count + 1, number => UInt8.ofNat number :: ofNumber count (number / 256)

/-- The bytes of two numbers and of a third one add up, the lowest first, with a carry that
goes in and one that comes out. -/
def AddUp (carry : Bool) (firsts seconds totals : List UInt8) (last : Bool) : Prop :=
  Digits.AddUp 256 carry (firsts.map UInt8.toNat) (seconds.map UInt8.toNat)
    (totals.map UInt8.toNat) last

/-- One more digit goes on top. -/
theorem AddUp.concat {carry last next : Bool} {firsts seconds totals : List UInt8}
    {first second total : UInt8} (adds : AddUp carry firsts seconds totals last)
    (top : first.toNat + second.toNat + last.toNat = total.toNat + 256 * next.toNat) :
    AddUp carry (firsts ++ [first]) (seconds ++ [second]) (totals ++ [total]) next := by
  unfold AddUp
  rw [List.map_append, List.map_append, List.map_append]
  exact Digits.AddUp.append adds (.digit top (.done next))

theorem ofNumber_number (bytes : List UInt8) : ofNumber bytes.length (number bytes) = bytes := by
  induction bytes with
  | nil => rfl
  | cons byte bytes inductionHypothesis =>
      have whole : number (byte :: bytes) = byte.toNat + 256 * number bytes := by
        rw [number, List.map_cons, Nat.ofDigits_cons, number]
      have small := byte.toNat_lt
      have first : UInt8.ofNat (byte.toNat + 256 * number bytes) = byte := by
        apply UInt8.toNat.inj
        rw [UInt8.toNat_ofNat']
        omega
      have rest : (byte.toNat + 256 * number bytes) / 256 = number bytes := by
        omega
      rw [List.length_cons, whole, ofNumber, first, rest, inductionHypothesis]

theorem digits_lt {bytes : List UInt8} : ∀ digit ∈ bytes.map UInt8.toNat, digit < 256 := by
  intro digit member
  rcases List.mem_map.mp member with ⟨byte, -, rfl⟩
  exact byte.toNat_lt

theorem number_lt (bytes : List UInt8) : number bytes < 256 ^ bytes.length := by
  rw [← List.length_map UInt8.toNat]
  exact Nat.ofDigits_lt_base_pow_length (by decide) digits_lt

end Bytes

/-! ## Links -/

namespace Arithmetic

variable {byte : UInt8} {before after : Registers}

/-- A byte and a carry hold a result that one more bit has room for, whichever sign it has. -/
theorem eq_of_overflows {result : Int} {left : Nat} {raised : Bool}
    (stored : (left : Int) = result % 256) (carry : raised = true ↔ Overflows 256 result)
    (near : -256 <= result ∧ result < 512) :
    result = left + 256 * raised.toNat ∨ result = left - 256 * raised.toNat := by
  rw [Overflows] at carry
  cases raised with
  | false =>
      have fits := mt carry.mpr Bool.false_ne_true
      rw [Bool.toNat_false]
      omega
  | true =>
      have overflows := carry.mp rfl
      rw [Bool.toNat_true]
      omega

/-- A sum and its carry make up what was added. -/
theorem Computes.balance_sum {arithmetic : Arithmetic}
    (computes : Computes arithmetic byte before after) (stored : arithmetic ≠ .cp)
    (result : ∀ first second carry,
      arithmetic.result first second carry = (first : Int) + second + carry.toNat) :
    before.a.toNat + byte.toNat + (arithmetic.carryIn before).toNat =
      after.a.toNat + 256 * (after.flag .carry).toNat := by
  have a := computes.stored stored
  have carry := computes.carry
  have first := before.a.toNat_lt
  have second := byte.toNat_lt
  have small := (arithmetic.carryIn before).toNat_le
  rw [result] at a carry
  rcases eq_of_overflows a carry (by omega) with sum | sum <;> omega

/-- What is left of a difference and what was taken off make up what was there and the
borrow. -/
theorem Computes.balance_difference {arithmetic : Arithmetic}
    (computes : Computes arithmetic byte before after) (stored : arithmetic ≠ .cp)
    (result : ∀ first second carry,
      arithmetic.result first second carry = (first : Int) - second - carry.toNat) :
    after.a.toNat + byte.toNat + (arithmetic.carryIn before).toNat =
      before.a.toNat + 256 * (after.flag .carry).toNat := by
  have a := computes.stored stored
  have carry := computes.carry
  have first := before.a.toNat_lt
  have second := byte.toNat_lt
  have small := (arithmetic.carryIn before).toNat_le
  rw [result] at a carry
  rcases eq_of_overflows a carry (by omega) with difference | difference <;> omega

end Arithmetic

namespace Shift

/-- Moving up doubles a byte.  What does not fit goes to the carry. -/
theorem balance_sla (byte : UInt8) (carry : Bool) :
    byte.toNat + byte.toNat + false.toNat =
      (sla.apply carry byte).1.toNat + 256 * (sla.apply carry byte).2.toNat := by
  have doubled := Bits.double_eq byte false
  rw [if_neg Bool.false_ne_true, UInt8.or_zero] at doubled
  exact doubled

theorem balance_rl (byte : UInt8) (carry : Bool) :
    byte.toNat + byte.toNat + carry.toNat =
      ((rotate .rl).apply carry byte).1.toNat + 256 * ((rotate .rl).apply carry byte).2.toNat :=
  Bits.double_eq byte carry

/-- Moving down halves a byte.  What is left over goes to the carry. -/
theorem balance_srl (byte : UInt8) (carry : Bool) :
    (srl.apply carry byte).1.toNat + (srl.apply carry byte).1.toNat +
      (srl.apply carry byte).2.toNat = byte.toNat + 256 * false.toNat := by
  have halved := Bits.halve_eq byte false
  rw [if_neg Bool.false_ne_true, UInt8.or_zero] at halved
  exact halved

theorem balance_rr (byte : UInt8) (carry : Bool) :
    ((rotate .rr).apply carry byte).1.toNat + ((rotate .rr).apply carry byte).1.toNat +
      ((rotate .rr).apply carry byte).2.toNat = byte.toNat + 256 * carry.toNat :=
  Bits.halve_eq byte carry

end Shift

/-- Two bytes that are combined, and what comes of them. -/
structure Combination where
  first : UInt8
  second : UInt8
  result : UInt8
  deriving DecidableEq, Repr

/-- A byte whose bits are moved, and what becomes of it. -/
structure Movement where
  found : UInt8
  result : UInt8
  deriving DecidableEq, Repr

namespace Wired

variable {Memory : Type} [Bus Memory] {wired : Wired Memory}

/-- The next step combines A with a byte, wherever the byte is, and leaves the result in A. -/
structure Combines (arithmetic : Arithmetic) (wired : Wired Memory) (bytes : Combination) :
    Prop where
  a : wired.registers.a = bytes.first
  combined : wired.combined? = some (arithmetic, bytes.second)
  result : wired.step.2.registers.a = bytes.result

/-- How the next step moves the bits of an operand, and the byte that it finds there. -/
def moved? (wired : Wired Memory) : Option (Shift × Operand × UInt8) :=
  match wired.decoded? with
  | some (.shift movement target, fetched) =>
      some (movement, target, (fetched.readOperand target).1)
  | _ => none

/-- The next step leaves a byte in an operand: it is in the register after the step, or the
step writes it where HL points. -/
def Leaves (wired : Wired Memory) (byte : UInt8) : Operand -> Prop
  | .memory => wired.stepWrites = [(wired.registers.hl, byte)]
  | register => wired.step.2.registers.value [] register = byte

/-- The next step moves the bits of a byte, in a register or where HL points. -/
def Moves (movement : Shift) (wired : Wired Memory) (bytes : Movement) : Prop :=
  ∃ target, wired.moved? = some (movement, target, bytes.found) ∧
    wired.Leaves bytes.result target

theorem Combines.computes {arithmetic : Arithmetic} {bytes : Combination}
    (combines : Combines arithmetic wired bytes) :
    arithmetic.Computes bytes.second wired.registers wired.step.2.registers := by
  rcases step_of_combined combines.combined with ⟨timing, pc, -, registers⟩
  have computes := arithmetic.computes_combine wired.registers bytes.second
  rw [registers]
  exact ⟨computes.stored, computes.kept, computes.zero, computes.subtract, computes.halfCarry,
    computes.carry, computes.onlyFlags⟩

theorem registers_perform_shift (wired : Wired Memory) (movement : Shift) (target : Operand) :
    let shifted := wired.registers.shift movement (wired.readOperand target).1
    (wired.perform (.shift movement target)).registers =
      ((wired.mapRegisters fun _ => shifted.2).writeOperand target shifted.1).registers := by
  cases target <;> rfl

theorem value_writeOperand (wired : Wired Memory) {target : Operand} (register : target ≠ .memory)
    (byte : UInt8) : (wired.writeOperand target byte).registers.value [] target = byte := by
  cases target with
  | memory => exact absurd rfl register
  | _ => rfl

/-- A movement in memory writes the byte that comes of the one that was found. -/
theorem stepWrites_of_moved {movement : Shift} {byte : UInt8}
    (moved : wired.moved? = some (movement, .memory, byte)) :
    wired.stepWrites =
      [(wired.registers.hl, (movement.apply (wired.registers.flag .carry) byte).1)] := by
  unfold moved? at moved
  split at moved
  · next target fetched decoded =>
    rcases exists_decoded_recorded decoded with ⟨seen, recorded, rfl⟩
    rcases exists_opcode_of_decoded recorded with ⟨opcode, -, -, registers, past⟩
    cases moved
    let found := (seen.readByte seen.registers.hl).1
    let left := (movement.apply (seen.registers.flag .carry) found).1
    have executed : (seen.perform (.shift movement .memory)).past =
        .write seen.registers.hl left :: .read seen.registers.hl found :: seen.past := rfl
    have stepped : wired.stepWrites =
        (seen.perform (.shift movement .memory)).past.reverse.filterMap Access.written? := by
      rw [stepWrites, step_of_decoded recorded]
      rfl
    have start : seen.registers.hl = wired.registers.hl := by
      rw [registers]
      rfl
    have carry : seen.registers.flag .carry = wired.registers.flag .carry := by
      rw [registers]
      rfl
    rw [stepped, executed, past, ← start, ← carry]
    simp only [List.reverse_cons, List.reverse_append, List.reverse_reverse, List.filterMap_append,
      Access.filterMap_reads]
    rfl
  · cases moved

/-- A movement puts the bit that falls out into the carry, and the byte back into its
register. -/
theorem step_of_moved {movement : Shift} {target : Operand} {byte : UInt8}
    (moved : wired.moved? = some (movement, target, byte)) :
    let left := movement.apply (wired.registers.flag .carry) byte
    (∃ timing, wired.step.1 = .ok timing) ∧ wired.step.2.registers.flag .carry = left.2 ∧
      (target ≠ .memory -> wired.step.2.registers.value [] target = left.1) := by
  intro left
  unfold moved? at moved
  split at moved
  · next target fetched decoded =>
    cases moved
    have carry : fetched.registers.flag .carry = wired.registers.flag .carry := by
      rw [registers_of_decoded decoded]
      rfl
    have shifted :
        (fetched.registers.shift movement (fetched.readOperand target).1).1 = left.1 := by
      rw [Registers.shift, carry]
    have stepped : wired.step.2.registers =
        (fetched.perform (.shift movement target)).registers := by
      rw [step_of_decoded decoded]
      rfl
    rw [registers_perform_shift] at stepped
    refine ⟨⟨_, congrArg Prod.fst (step_of_decoded decoded)⟩, ?_, ?_⟩
    · have packed : wired.step.2.registers.f = Flag.pack (left.1 == 0) false false left.2 := by
        rw [stepped, f_writeOperand, ← shifted]
        change (fetched.registers.shift movement _).2.f = _
        rw [Registers.shift, carry]
      exact Registers.flag_of_pack packed .carry
    · intro register
      rw [stepped, value_writeOperand _ register, shifted]
  · cases moved

/-- A link that moves the bits of a byte leaves the byte and the carry that come of it. -/
theorem Moves.outcome {movement : Shift} {bytes : Movement}
    (moves : Moves movement wired bytes) :
    let left := movement.apply (wired.registers.flag .carry) bytes.found
    (∃ timing, wired.step.1 = .ok timing) ∧ bytes.result = left.1 ∧
      wired.step.2.registers.flag .carry = left.2 := by
  intro left
  rcases moves with ⟨target, moved, leaves⟩
  rcases step_of_moved moved with ⟨answered, carry, register⟩
  refine ⟨answered, ?_, carry⟩
  by_cases memory : target = .memory
  · subst memory
    rw [Leaves, stepWrites_of_moved moved] at leaves
    exact (Prod.mk.inj (List.cons.inj leaves).1).2.symm
  · rw [← register memory]
    cases target with
    | memory => exact absurd rfl memory
    | _ => exact leaves.symm

theorem carry_of_setCarry (sets : wired.operation? = some .setCarry) :
    wired.step.2.registers.flag .carry = true := by
  rcases Option.map_eq_some_iff.mp sets with ⟨⟨operation, fetched⟩, decoded, rfl⟩
  have stepped : wired.step.2.registers.flag .carry =
      (fetched.registers.putCarry true).flag .carry := by
    rw [step_of_decoded decoded]
    rfl
  rw [stepped, Registers.putCarry, Registers.flag_setFlag, if_pos rfl]

end Wired

/-! ## Chains -/

namespace Operation

/-- Whether an operation loads a byte or a word. -/
def isLoad : Operation -> Bool
  | load _ _ | loadByte _ | loadWord _ | storeThrough _ | loadThrough _ | storeHigh | loadHigh
  | storeHighC | loadHighC | storeAbsolute | loadAbsolute | storeStackPointer | loadStackOffset
  | loadStackPointer => true
  | _ => false

/-- Whether an operation is of the kind that programs put between the links of a chain: loads,
steps of pairs and bytes, the stack without AF, single bits, and jumps. -/
def isFiller : Operation -> Bool
  | incrementPair _ | decrementPair _ | push _ | resetBit _ _ | setBit _ _ | increment _
  | decrement _ | testBit _ _ | jumpRelative _ | jump _ | jumpHl => true
  | pop target => target != .af
  | operation => operation.isLoad

/-- Whether an operation leaves the carry as it is. -/
def KeepsCarry (operation : Operation) : Prop :=
  .carry ∉ operation.touched

/-- All operations of this kind but one keep the carry. -/
theorem keepsCarry_of_isFiller {operation : Operation} (filler : operation.isFiller = true)
    (other : operation ≠ .loadStackOffset) : operation.KeepsCarry := by
  unfold KeepsCarry
  cases operation with
  | loadStackOffset => exact absurd rfl other
  | pop target =>
      cases target with
      | af => cases filler
      | _ => exact List.not_mem_nil
  | increment target | decrement target | testBit index source => simp [touched]
  | addPair source | addStackOffset | arithmetic arithmetic source | arithmeticByte arithmetic
  | rotateA rotation | decimalAdjust | complement | setCarry | complementCarry
  | shift movement target => cases filler
  | _ => exact List.not_mem_nil

end Operation

namespace Wired

variable {Memory : Type} [Bus Memory] {allowed : Operation -> Prop} {Entry : Type}

/-- Links one behind the other, each with its bytes.  Before every link something else may go
on, with operations that are allowed there. -/
inductive Chain (allowed : Operation -> Prop) (Link : Wired Memory -> Entry -> Prop) :
    Wired Memory -> List Entry -> Wired Memory -> Prop where
  | done (wired : Wired Memory) : Chain allowed Link wired [] wired
  | link {start before finish : Wired Memory} {bytes : Entry} {rest : List Entry}
      (between : Course allowed start before) (here : Link before bytes)
      (others : Chain allowed Link before.step.2 rest finish) :
      Chain allowed Link start (bytes :: rest) finish

namespace Chain

variable {Link : Wired Memory -> Entry -> Prop} {start finish : Wired Memory}
  {rest : List Entry} {first second total : Entry -> UInt8}

/-- Where every link is a sum of digits and of the carry that it finds, the digits of the
links add up, the lowest first. -/
theorem addUp (chain : Chain Operation.KeepsCarry Link start rest finish)
    (balance : ∀ before bytes, Link before bytes ->
      (first bytes).toNat + (second bytes).toNat + (before.registers.flag .carry).toNat =
        (total bytes).toNat + 256 * (before.step.2.registers.flag .carry).toNat) :
    Bytes.AddUp (start.registers.flag .carry) (rest.map first) (rest.map second) (rest.map total)
      (finish.registers.flag .carry) := by
  induction chain with
  | done => exact Digits.AddUp.done _
  | @link start before finish bytes rest between here others inductionHypothesis =>
      rw [← between.flag_eq fun operation keeps => keeps]
      exact Digits.AddUp.digit (balance before bytes here) inductionHypothesis

/-- Where every link hands its carry to the sum below it, the digits of the links add up,
the highest first. -/
theorem addUp_reverse (chain : Chain Operation.KeepsCarry Link start rest finish)
    (balance : ∀ before bytes, Link before bytes ->
      (first bytes).toNat + (second bytes).toNat + (before.step.2.registers.flag .carry).toNat =
        (total bytes).toNat + 256 * (before.registers.flag .carry).toNat) :
    Bytes.AddUp (finish.registers.flag .carry) (rest.reverse.map first) (rest.reverse.map second)
      (rest.reverse.map total) (start.registers.flag .carry) := by
  induction chain with
  | done => exact Digits.AddUp.done _
  | @link start before finish bytes rest between here others inductionHypothesis =>
      rw [← between.flag_eq fun operation keeps => keeps]
      simp only [List.reverse_cons, List.map_append, List.map_cons, List.map_nil]
      exact Bytes.AddUp.concat inductionHypothesis (balance before bytes here)

end Chain

end Wired

/-! ## What chains compute -/

namespace Bytes

variable {carry last : Bool} {firsts seconds totals : List UInt8}

theorem AddUp.sum (adds : AddUp carry firsts seconds totals last) :
    let sum := number firsts + number seconds + carry.toNat
    totals = ofNumber totals.length (sum % 256 ^ totals.length) ∧
      (last = true ↔ 256 ^ totals.length <= sum) := by
  intro sum
  rcases Digits.AddUp.sum adds digits_lt (by decide) with ⟨fits, overflow⟩
  rw [List.length_map] at fits overflow
  refine ⟨?_, overflow⟩
  calc
    totals
    _ = ofNumber totals.length (number totals) := (ofNumber_number totals).symm
    _ = ofNumber totals.length (sum % 256 ^ totals.length) :=
        congrArg (ofNumber totals.length) fits

theorem AddUp.difference (adds : AddUp carry firsts seconds totals last) :
    let difference := (number totals : Int) - number seconds - carry.toNat
    firsts = ofNumber firsts.length (difference % (256 ^ firsts.length : Nat)).toNat ∧
      (last = true ↔ number totals < number seconds + carry.toNat) := by
  intro difference
  rcases Digits.AddUp.difference adds digits_lt (by decide) with ⟨left, underflow⟩
  rw [List.length_map] at left
  refine ⟨?_, underflow⟩
  calc
    firsts
    _ = ofNumber firsts.length (number firsts) := (ofNumber_number firsts).symm
    _ = ofNumber firsts.length ((number firsts : Nat) : Int).toNat := rfl
    _ = _ := congrArg (fun whole : Int => ofNumber firsts.length whole.toNat) left

/-- The carry of a doubled number is the highest bit of the number. -/
theorem pow_le_double_iff (bytes : List UInt8) (some : bytes ≠ []) :
    256 ^ bytes.length <= number bytes + number bytes ↔
      (number bytes).testBit (8 * bytes.length - 1) = true := by
  have fits := number_lt bytes
  have long : 0 < bytes.length := List.length_pos_iff.mpr some
  have bound : 256 ^ bytes.length = 2 * 2 ^ (8 * bytes.length - 1) := by
    rw [show 256 = 2 ^ 8 from rfl, ← Nat.pow_mul, ← Nat.pow_succ']
    congr 1
    omega
  rw [bound] at fits ⊢
  constructor
  · intro overflow
    exact Nat.testBit_of_two_pow_le_and_two_pow_add_one_gt (by omega) (by omega)
  · intro raised
    have large := Nat.ge_two_pow_of_testBit raised
    omega

theorem AddUp.half (adds : AddUp carry firsts firsts totals false) :
    firsts = ofNumber firsts.length (number totals / 2) ∧ carry.toNat = number totals % 2 := by
  have whole : number firsts + number firsts + carry.toNat = number totals + _ * 0 :=
    Digits.AddUp.ofDigits adds
  have small := carry.toNat_le
  have half : number firsts = number totals / 2 := by
    omega
  refine ⟨?_, by omega⟩
  rw [← half, ofNumber_number]

end Bytes

namespace Wired

open Bytes (number ofNumber)

variable {Memory : Type} [Bus Memory] {wired start finish : Wired Memory}

/-- A link of a chain of sums adds two digits and the carry that goes in. -/
theorem Combines.balance_sum {arithmetic : Arithmetic} {bytes : Combination}
    (combines : Combines arithmetic wired bytes) (stored : arithmetic ≠ .cp)
    (result : ∀ first second carry,
      arithmetic.result first second carry = (first : Int) + second + carry.toNat) :
    bytes.first.toNat + bytes.second.toNat + (arithmetic.carryIn wired.registers).toNat =
      bytes.result.toNat + 256 * (wired.step.2.registers.flag .carry).toNat := by
  rw [← combines.a, ← combines.result]
  exact combines.computes.balance_sum stored result

theorem Combines.balance_difference {arithmetic : Arithmetic} {bytes : Combination}
    (combines : Combines arithmetic wired bytes) (stored : arithmetic ≠ .cp)
    (result : ∀ first second carry,
      arithmetic.result first second carry = (first : Int) - second - carry.toNat) :
    bytes.result.toNat + bytes.second.toNat + (arithmetic.carryIn wired.registers).toNat =
      bytes.first.toNat + 256 * (wired.step.2.registers.flag .carry).toNat := by
  rw [← combines.a, ← combines.result]
  exact combines.computes.balance_difference stored result

theorem addUp_of_adc {all : List Combination}
    (chain : Chain Operation.KeepsCarry (Combines .adc) start all finish) :
    Bytes.AddUp (start.registers.flag .carry) (all.map Combination.first)
      (all.map Combination.second) (all.map Combination.result)
      (finish.registers.flag .carry) :=
  chain.addUp fun _ _ link => link.balance_sum (by decide) fun _ _ _ => rfl

/-- A chain of sums may begin with one that takes no carry. -/
theorem addUp_of_add {bytes : Combination} {rest : List Combination}
    (first : Combines .add start bytes)
    (chain : Chain Operation.KeepsCarry (Combines .adc) start.step.2 rest finish) :
    let all := bytes :: rest
    Bytes.AddUp false (all.map Combination.first) (all.map Combination.second)
      (all.map Combination.result) (finish.registers.flag .carry) :=
  Digits.AddUp.digit (first.balance_sum (by decide) fun _ _ _ => rfl) (addUp_of_adc chain)

theorem addUp_of_sub {bytes : Combination} {rest : List Combination}
    (first : Combines .sub start bytes)
    (chain : Chain Operation.KeepsCarry (Combines .sbc) start.step.2 rest finish) :
    let all := bytes :: rest
    Bytes.AddUp false (all.map Combination.result) (all.map Combination.second)
      (all.map Combination.first) (finish.registers.flag .carry) :=
  Digits.AddUp.digit (first.balance_difference (by decide) fun _ _ _ => rfl)
    (chain.addUp fun _ _ link => link.balance_difference (by decide) fun _ _ _ => rfl)

theorem addUp_of_sla {bytes : Movement} {rest : List Movement}
    (first : Moves .sla start bytes)
    (chain : Chain Operation.KeepsCarry (Moves (.rotate .rl)) start.step.2 rest finish) :
    let all := bytes :: rest
    Bytes.AddUp false (all.map Movement.found) (all.map Movement.found) (all.map Movement.result)
      (finish.registers.flag .carry) := by
  intro all
  refine Digits.AddUp.digit ?_ (chain.addUp fun before bytes link => ?_)
  · rcases first.outcome with ⟨-, result, carry⟩
    rw [result, carry]
    exact Shift.balance_sla _ _
  · rcases link.outcome with ⟨-, result, carry⟩
    rw [result, carry]
    exact Shift.balance_rl _ _

theorem addUp_of_srl {bytes : Movement} {rest : List Movement}
    (first : Moves .srl start bytes)
    (chain : Chain Operation.KeepsCarry (Moves (.rotate .rr)) start.step.2 rest finish) :
    let all := (bytes :: rest).reverse
    Bytes.AddUp (finish.registers.flag .carry) (all.map Movement.result)
      (all.map Movement.result) (all.map Movement.found) false := by
  intro all
  have lower := chain.addUp_reverse fun before bytes (link : Moves _ before bytes) => by
    rcases link.outcome with ⟨-, result, carry⟩
    have balance := Shift.balance_rr bytes.found (before.registers.flag .carry)
    rw [← result, ← carry] at balance
    exact balance
  rcases first.outcome with ⟨-, result, carry⟩
  have upper := Shift.balance_srl bytes.found (start.registers.flag .carry)
  rw [← result, ← carry] at upper
  simp only [all, List.reverse_cons, List.map_append, List.map_cons, List.map_nil]
  exact lower.concat upper

/-- Carries make numbers of any length out of bytes.  A chain of sums leaves the last digits
of the whole sum, and raises the carry where the sum does not fit; it begins with a sum
without a carry, or with one that finds the carry raised.  A chain of differences leaves the
last digits of the difference, and the carry is what had to be borrowed.  Moving up from the
lowest byte doubles a number, and moving down from the highest byte halves it; the carry is
the bit that falls out.  All this does not depend on what goes on between two links, with
loads but the one of a stack offset, steps of pairs and bytes, the stack without AF, single
bits and jumps, or with anything else that keeps the carry.  No link fails. -/
theorem carries_chain_bytes :
    (∀ operation : Operation, operation.isFiller = true -> operation ≠ .loadStackOffset ->
      operation.KeepsCarry) ∧
    (∀ (arithmetic : Arithmetic) (bytes : Combination), Combines arithmetic start bytes ->
      ∃ timing, start.step.1 = .ok timing) ∧
    (∀ (movement : Shift) (bytes : Movement), Moves movement start bytes ->
      ∃ timing, start.step.1 = .ok timing) ∧
    (∀ (bytes : Combination) (rest : List Combination), Combines .add start bytes ->
      Chain Operation.KeepsCarry (Combines .adc) start.step.2 rest finish ->
      let all := bytes :: rest
      let sum := number (all.map Combination.first) + number (all.map Combination.second)
      all.map Combination.result = ofNumber all.length (sum % 256 ^ all.length) ∧
        (finish.registers.flag .carry = true ↔ 256 ^ all.length <= sum)) ∧
    (∀ all : List Combination, start.operation? = some .setCarry ->
      Chain Operation.KeepsCarry (Combines .adc) start.step.2 all finish ->
      let sum := number (all.map Combination.first) + number (all.map Combination.second) + 1
      all.map Combination.result = ofNumber all.length (sum % 256 ^ all.length) ∧
        (finish.registers.flag .carry = true ↔ 256 ^ all.length <= sum)) ∧
    (∀ (bytes : Combination) (rest : List Combination), Combines .sub start bytes ->
      Chain Operation.KeepsCarry (Combines .sbc) start.step.2 rest finish ->
      let all := bytes :: rest
      let first := number (all.map Combination.first)
      let second := number (all.map Combination.second)
      all.map Combination.result =
          ofNumber all.length (((first : Int) - second) % (256 ^ all.length : Nat)).toNat ∧
        (finish.registers.flag .carry = true ↔ first < second)) ∧
    (∀ (bytes : Movement) (rest : List Movement), Moves .sla start bytes ->
      Chain Operation.KeepsCarry (Moves (.rotate .rl)) start.step.2 rest finish ->
      let all := bytes :: rest
      let found := number (all.map Movement.found)
      all.map Movement.result = ofNumber all.length (2 * found % 256 ^ all.length) ∧
        finish.registers.flag .carry = found.testBit (8 * all.length - 1)) ∧
    ∀ (bytes : Movement) (rest : List Movement), Moves .srl start bytes ->
      Chain Operation.KeepsCarry (Moves (.rotate .rr)) start.step.2 rest finish ->
      let all := (bytes :: rest).reverse
      let found := number (all.map Movement.found)
      all.map Movement.result = ofNumber all.length (found / 2) ∧
        (finish.registers.flag .carry).toNat = found % 2 := by
  refine ⟨?_, ?_, ?_, ?_, ?_, ?_, ?_, ?_⟩
  · intro operation filler other
    exact Operation.keepsCarry_of_isFiller filler other
  · intro arithmetic bytes combines
    rcases step_of_combined combines.combined with ⟨timing, -, answered, -⟩
    exact ⟨timing, answered⟩
  · intro movement bytes moves
    exact moves.outcome.1
  · intro bytes rest first chain all sum
    have adds := (addUp_of_add first chain).sum
    rw [List.length_map] at adds
    exact adds
  · intro all sets chain sum
    have adds := (addUp_of_adc chain).sum
    rw [List.length_map, carry_of_setCarry sets] at adds
    exact adds
  · intro bytes rest first chain all minuend subtrahend
    have adds := (addUp_of_sub first chain).difference
    rw [List.length_map, Bool.toNat_false, Int.natCast_zero, Int.sub_zero] at adds
    exact adds
  · intro bytes rest first chain all found
    have adds := (addUp_of_sla first chain).sum
    have top := Bytes.pow_le_double_iff (all.map Movement.found) (List.cons_ne_nil _ _)
    rw [List.length_map, Bool.toNat_false, Nat.add_zero] at adds
    rw [List.length_map] at top
    refine ⟨?_, Bool.eq_iff_iff.mpr (adds.2.trans top)⟩
    rw [Nat.two_mul]
    exact adds.1
  · intro bytes rest first chain all found
    have halved := (addUp_of_srl first chain).half
    rw [List.length_map] at halved
    exact halved

/-- A program that adds B to A, does something else, and adds E to what is in D. -/
def sumProgram (between : List UInt8) : Wired Board :=
  { cpu := { Cpu.afterBoot with
      registers := ⟨0xFF, 0x00, 0x01, 0x00, 0x00, 0x00, 0x00, 0x00, 0xFFFE, 0xC000⟩ }
    memory := (Board.empty .green).setAll 0xC000 (0x80 :: (between ++ [0x7A, 0x8B])) }

/-- The load of HL with the stack pointer and an offset breaks a chain: 00FF and 0001 do not
add up to 0100 where it stands between the links. -/
theorem offset_load_breaks_chain :
    ∃ (finish : Wired Board) (bytes : Combination) (rest : List Combination),
      let start := sumProgram [0xF8, 0x00]
      let all := bytes :: rest
      Combines .add start bytes ∧
      Chain (fun operation => operation.isFiller = true) (Combines .adc) start.step.2 rest finish ∧
      number (all.map Combination.first) = 0x00FF ∧
      number (all.map Combination.second) = 0x0001 ∧
      number (all.map Combination.result) = 0x0000 ∧
      all.map Combination.result ≠ ofNumber all.length ((0x00FF + 0x0001) % 256 ^ all.length) := by
  let start := sumProgram [0xF8, 0x00]
  let next := start.step.2.step.2.step.2
  have lower : Combines .add start ⟨0xFF, 0x01, 0x00⟩ :=
    ⟨rfl, by decide +kernel, by decide +kernel⟩
  have upper : Combines .adc next ⟨0x00, 0x00, 0x00⟩ :=
    ⟨by decide +kernel, by decide +kernel, by decide +kernel⟩
  have offset : start.step.2.operation? = some .loadStackOffset := by
    decide +kernel
  have load : start.step.2.step.2.operation? = some (.load .a .d) := by
    decide +kernel
  have between : Course (fun operation => operation.isFiller = true) start.step.2 next :=
    .step_of_operation offset rfl (.step_of_operation load rfl (.done _))
  refine ⟨next.step.2, ⟨0xFF, 0x01, 0x00⟩, [⟨0x00, 0x00, 0x00⟩], lower,
    .link between upper (.done _), ?_⟩
  decide

/-- A program that halves the number 0101 behind it, beginning with its high byte. -/
def halfProgram : Wired Board :=
  { cpu := { Cpu.afterBoot with
      registers := ⟨0x00, 0x00, 0x00, 0x00, 0x00, 0x00, 0xC0, 0x06, 0xFFFE, 0xC000⟩ }
    memory := (Board.empty .green).setAll 0xC000 [0xCB, 0x3E, 0x2B, 0xCB, 0x1E, 0x01, 0x01] }

/-- A step of B between the links breaks no sum, and a step of HL breaks no halving. -/
theorem programs_chain_bytes :
    (∃ finish : Wired Board,
      let start := sumProgram [0x04]
      let all : List Combination := [⟨0xFF, 0x01, 0x00⟩, ⟨0x00, 0x00, 0x01⟩]
      Combines .add start ⟨0xFF, 0x01, 0x00⟩ ∧
      Chain Operation.KeepsCarry (Combines .adc) start.step.2 [⟨0x00, 0x00, 0x01⟩] finish ∧
      all.map Combination.result = ofNumber 2 0x0100 ∧
      finish.registers.flag .carry = false) ∧
    ∃ finish : Wired Board,
      let all : List Movement := [⟨0x01, 0x00⟩, ⟨0x01, 0x80⟩]
      Moves .srl halfProgram ⟨0x01, 0x00⟩ ∧
      Chain Operation.KeepsCarry (Moves (.rotate .rr)) halfProgram.step.2 [⟨0x01, 0x80⟩] finish ∧
      all.reverse.map Movement.result = ofNumber 2 0x0080 ∧
      finish.registers.flag .carry = true := by
  constructor
  · let start := sumProgram [0x04]
    let next := start.step.2.step.2.step.2
    have lower : Combines .add start ⟨0xFF, 0x01, 0x00⟩ :=
      ⟨rfl, by decide +kernel, by decide +kernel⟩
    have upper : Combines .adc next ⟨0x00, 0x00, 0x01⟩ :=
      ⟨by decide +kernel, by decide +kernel, by decide +kernel⟩
    have counts : start.step.2.operation? = some (.increment .b) := by
      decide +kernel
    have load : start.step.2.step.2.operation? = some (.load .a .d) := by
      decide +kernel
    rcases @carries_chain_bytes Board _ start next.step.2 with ⟨keeps, -, -, adds, -⟩
    have between : Course Operation.KeepsCarry start.step.2 next :=
      .step_of_operation counts (keeps _ rfl (by decide))
        (.step_of_operation load (keeps _ rfl (by decide)) (.done _))
    have chain : Chain Operation.KeepsCarry (Combines .adc) start.step.2 [⟨0x00, 0x00, 0x01⟩]
        next.step.2 := .link between upper (.done _)
    rcases adds ⟨0xFF, 0x01, 0x00⟩ [⟨0x00, 0x00, 0x01⟩] lower chain with ⟨sum, carry⟩
    refine ⟨next.step.2, lower, chain, sum, ?_⟩
    rw [Bool.eq_false_iff, Ne, carry]
    decide
  · let next := halfProgram.step.2.step.2
    have upper : Moves .srl halfProgram ⟨0x01, 0x00⟩ :=
      ⟨.memory, by decide +kernel, show halfProgram.stepWrites = _ by decide +kernel⟩
    have lower : Moves (.rotate .rr) next ⟨0x01, 0x80⟩ :=
      ⟨.memory, by decide +kernel, show next.stepWrites = _ by decide +kernel⟩
    have steps : halfProgram.step.2.operation? = some (.decrementPair .hl) := by
      decide +kernel
    rcases @carries_chain_bytes Board _ halfProgram next.step.2 with
      ⟨keeps, -, -, -, -, -, -, halves⟩
    have between : Course Operation.KeepsCarry halfProgram.step.2 next :=
      .step_of_operation steps (keeps _ rfl (by decide)) (.done _)
    have chain : Chain Operation.KeepsCarry (Moves (.rotate .rr)) halfProgram.step.2
        [⟨0x01, 0x80⟩] next.step.2 := .link between lower (.done _)
    rcases halves ⟨0x01, 0x00⟩ [⟨0x01, 0x80⟩] upper chain with ⟨half, carry⟩
    refine ⟨next.step.2, upper, chain, half, ?_⟩
    rw [← Bool.toNat_eq_one, carry]
    decide

end Wired

end Dmg
