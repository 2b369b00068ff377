import Dmg.Proofs.Cpu.Flags
import Dmg.Proofs.Cpu.Traffic

/-!
# The encodings of work on A

There are eight operations that combine A with a byte, and nine opcodes for each of them:
one for every place where the byte can be, and one for a byte that follows the opcode.  What
an operation means is said here in integers, without regard to the place of the byte.  All
encodings do what is said.
-/

namespace Dmg

namespace Arithmetic

/-! ## Integers -/

/-- The carry that goes into an operation.  Most operations take none. -/
def carryIn (arithmetic : Arithmetic) (registers : Registers) : Bool :=
  match arithmetic with
  | adc | sbc => registers.flag .carry
  | _ => false

/-- What an operation makes of two numbers and a carry, if there is room for it. -/
def result (arithmetic : Arithmetic) (first second : Nat) (carry : Bool) : Int :=
  match arithmetic with
  | add | adc => first + second + carry.toNat
  | sub | sbc | cp => first - second - carry.toNat
  | and => (first &&& second : Nat)
  | xor => (first ^^^ second : Nat)
  | or => (first ||| second : Nat)

/-- Whether an operation takes one number off another. -/
def subtracts : Arithmetic -> Bool
  | sub | sbc | cp => true
  | _ => false

/-- There is no room for a result among the numbers below a bound. -/
def Overflows (bound : Nat) (result : Int) : Prop :=
  result < 0 ∨ bound <= result

/-- A and F after an operation on A and a byte are those that the integers say.  A comparison
is a difference that is not stored, and the half carry, otherwise that of the lower halves, is
always raised by AND. -/
structure Computes (arithmetic : Arithmetic) (byte : UInt8) (before after : Registers) :
    Prop where
  stored : arithmetic ≠ .cp ->
    after.a.toNat = arithmetic.result before.a.toNat byte.toNat (arithmetic.carryIn before) % 256
  kept : arithmetic = .cp -> after.a = before.a
  zero : after.flag .zero = true ↔
    arithmetic.result before.a.toNat byte.toNat (arithmetic.carryIn before) % 256 = 0
  subtract : after.flag .subtract = arithmetic.subtracts
  halfCarry : after.flag .halfCarry = true ↔ arithmetic = .and ∨
    Overflows 16 (arithmetic.result (before.a.toNat % 16) (byte.toNat % 16)
      (arithmetic.carryIn before))
  carry : after.flag .carry = true ↔
    Overflows 256 (arithmetic.result before.a.toNat byte.toNat (arithmetic.carryIn before))
  onlyFlags : after.OnlyFlags

theorem toNat_sum (first second : UInt8) (carry : Bool) :
    ((sum first second carry).toNat : Int) =
      ((first.toNat : Int) + second.toNat + carry.toNat) % 256 := by
  rw [sum, UInt8.toNat_add, UInt8.toNat_add, Bits.toNat_toUInt8]
  omega

theorem toNat_difference (first second : UInt8) (carry : Bool) :
    ((difference first second carry).toNat : Int) =
      ((first.toNat : Int) - second.toNat - carry.toNat) % 256 := by
  have bound := second.toNat_lt
  have small := carry.toNat_le
  rw [difference, UInt8.toNat_sub, UInt8.toNat_sub, Bits.toNat_toUInt8]
  omega

theorem beq_zero_iff {byte : UInt8} {result : Int} (same : (byte.toNat : Int) = result % 256) :
    (byte == 0) = true ↔ result % 256 = 0 := by
  rw [beq_iff_eq, ← UInt8.toNat_inj, ← same]
  exact Int.natCast_eq_zero.symm

section Computes

variable {arithmetic : Arithmetic} {byte : UInt8} {before after : Registers}

theorem computes_of_sum (stored : arithmetic ≠ .cp) (other : arithmetic ≠ .and)
    (subtracts : arithmetic.subtracts = false)
    (result : ∀ first second carry,
      arithmetic.result first second carry = (first : Int) + second + carry.toNat)
    (a : after.a = sum before.a byte (arithmetic.carryIn before))
    (f : after.f = sumFlags before.a byte (arithmetic.carryIn before)) :
    Computes arithmetic byte before after := by
  have value := toNat_sum before.a byte (arithmetic.carryIn before)
  have flags := Registers.flag_of_pack f
  refine ⟨?_, ?_, ?_, ?_, ?_, ?_, Registers.onlyFlags_of_pack f⟩
  · intro _
    rw [a, value, result]
  · intro same
    exact absurd same stored
  · rw [flags, result]
    exact beq_zero_iff value
  · rw [flags, subtracts]
  · rw [flags, result, decide_eq_true_iff, Overflows, or_iff_right other]
    omega
  · rw [flags, result, decide_eq_true_iff, Overflows]
    omega

theorem computes_of_difference (other : arithmetic ≠ .and)
    (subtracts : arithmetic.subtracts = true)
    (result : ∀ first second carry,
      arithmetic.result first second carry = (first : Int) - second - carry.toNat)
    (a : arithmetic ≠ .cp -> after.a = difference before.a byte (arithmetic.carryIn before))
    (kept : arithmetic = .cp -> after.a = before.a)
    (f : after.f = differenceFlags before.a byte (arithmetic.carryIn before)) :
    Computes arithmetic byte before after := by
  have value := toNat_difference before.a byte (arithmetic.carryIn before)
  have flags := Registers.flag_of_pack f
  have first := before.a.toNat_lt
  refine ⟨?_, kept, ?_, ?_, ?_, ?_, Registers.onlyFlags_of_pack f⟩
  · intro stored
    rw [a stored, value, result]
  · rw [flags, result]
    exact beq_zero_iff value
  · rw [flags, subtracts]
  · rw [flags, result, decide_eq_true_iff, Overflows, or_iff_right other]
    omega
  · rw [flags, result, decide_eq_true_iff, Overflows]
    omega

/-- What works on bits never needs more room than there is. -/
theorem computes_of_bitwise {combination : Nat -> Nat -> Nat} (stored : arithmetic ≠ .cp)
    (subtracts : arithmetic.subtracts = false)
    (result : ∀ first second carry,
      arithmetic.result first second carry = (combination first second : Nat))
    (fits : ∀ {first second bits : Nat}, first < 2 ^ bits -> second < 2 ^ bits ->
      combination first second < 2 ^ bits)
    (a : after.a.toNat = combination before.a.toNat byte.toNat)
    (f : after.f = Flag.pack (after.a == 0) false (arithmetic == .and) false) :
    Computes arithmetic byte before after := by
  have flags := Registers.flag_of_pack f
  have half : combination (before.a.toNat % 16) (byte.toNat % 16) < 2 ^ 4 :=
    fits (Nat.mod_lt _ (by decide)) (Nat.mod_lt _ (by decide))
  have whole := after.a.toNat_lt
  have value : (after.a.toNat : Int) = (after.a.toNat : Int) % 256 := by
    omega
  refine ⟨?_, ?_, ?_, ?_, ?_, ?_, Registers.onlyFlags_of_pack f⟩
  · intro _
    rw [result, ← a, ← value]
  · intro same
    exact absurd same stored
  · rw [flags, result, ← a]
    exact beq_zero_iff value
  · rw [flags, subtracts]
  · have inside : ¬ Overflows 16 (combination (before.a.toNat % 16) (byte.toNat % 16) : Nat) := by
      rw [Overflows]
      omega
    rw [flags, result, beq_iff_eq, or_iff_left inside]
  · have inside : ¬ Overflows 256 (combination before.a.toNat byte.toNat : Nat) := by
      rw [← a, Overflows]
      omega
    rw [flags, result]
    constructor
    · intro raised
      cases raised
    · intro overflow
      exact absurd overflow inside

end Computes

theorem computes_combine (arithmetic : Arithmetic) (registers : Registers) (byte : UInt8) :
    Computes arithmetic byte registers (registers.combine arithmetic byte) := by
  cases arithmetic with
  | add | adc =>
      exact computes_of_sum (by decide) (by decide) rfl (fun _ _ _ => rfl) rfl rfl
  | sub | sbc =>
      exact computes_of_difference (by decide) rfl (fun _ _ _ => rfl) (fun _ => rfl)
        (fun same => by cases same) rfl
  | cp =>
      exact computes_of_difference (by decide) rfl (fun _ _ _ => rfl)
        (fun stored => absurd rfl stored) (fun _ => rfl) rfl
  | and =>
      exact computes_of_bitwise (by decide) rfl (fun _ _ _ => rfl)
        (fun _ second => Nat.and_lt_two_pow _ second) (UInt8.toNat_and _ _) rfl
  | xor =>
      exact computes_of_bitwise (by decide) rfl (fun _ _ _ => rfl) Nat.xor_lt_two_pow
        (UInt8.toNat_xor _ _) rfl
  | or =>
      exact computes_of_bitwise (by decide) rfl (fun _ _ _ => rfl) Nat.or_lt_two_pow
        (UInt8.toNat_or _ _) rfl

/-! ## Places of the byte -/

/-- The three bits that name an operation in an opcode. -/
def field : Arithmetic -> UInt8
  | add => 0
  | adc => 1
  | sub => 2
  | sbc => 3
  | and => 4
  | xor => 5
  | or => 6
  | cp => 7

end Arithmetic

/-- The three bits that name an operand in an opcode. -/
def Operand.field : Operand -> UInt8
  | b => 0
  | c => 1
  | d => 2
  | e => 3
  | h => 4
  | l => 5
  | memory => 6
  | a => 7

/-- Where the byte is that A is combined with: in an operand, or behind the opcode. -/
inductive Source where
  | operand (place : Operand)
  | immediate
  deriving DecidableEq, Repr

namespace Source

/-- The opcode that combines A with a byte at a source. -/
def code (source : Source) (arithmetic : Arithmetic) : UInt8 :=
  match source with
  | operand place => 0x80 + 8 * arithmetic.field + place.field
  | immediate => 0xC6 + 8 * arithmetic.field

/-- The operation that combines A with a byte at a source. -/
def operation (source : Source) (arithmetic : Arithmetic) : Operation :=
  match source with
  | operand place => .arithmetic arithmetic place
  | immediate => .arithmeticByte arithmetic

/-- How many bytes such an instruction takes. -/
def length : Source -> UInt16
  | operand _ => 1
  | immediate => 2

theorem decode_code (source : Source) (arithmetic : Arithmetic) :
    Opcode.decode (source.code arithmetic) = .operation (source.operation arithmetic) := by
  cases source with
  | operand place => cases arithmetic <;> cases place <;> rfl
  | immediate => cases arithmetic <;> rfl

/-- Nothing is written, whatever the operation and the source are. -/
theorem writes_operation (source : Source) (arithmetic : Arithmetic) (registers : Registers)
    (behind : UInt16) (operand found : List UInt8) :
    (source.operation arithmetic).writes registers behind operand found = [] := by
  cases source <;> rfl

end Source

namespace Registers

/-- What an operation makes of A and of the flags follows from A, the byte and the carry that
goes in. -/
theorem combine_congr {first second : Registers} (arithmetic : Arithmetic) (byte : UInt8)
    (a : first.a = second.a) (carry : arithmetic.carryIn first = arithmetic.carryIn second) :
    (first.combine arithmetic byte).a = (second.combine arithmetic byte).a ∧
      (first.combine arithmetic byte).f = (second.combine arithmetic byte).f := by
  cases arithmetic with
  | adc | sbc =>
      have same : first.flag .carry = second.flag .carry := carry
      simp only [Registers.combine, a, same, and_self]
  | _ => simp only [Registers.combine, a, and_self]

/-- An operation on A changes A and F and no other register. -/
theorem combine_others (registers : Registers) (arithmetic : Arithmetic) (byte : UInt8) :
    let combined := registers.combine arithmetic byte
    combined = { registers with a := combined.a, f := combined.f } := by
  cases arithmetic <;> rfl

end Registers

namespace Wired

variable {Memory : Type} [Bus Memory] {wired : Wired Memory} {arithmetic : Arithmetic}
  {source : Source}

/-- The byte at a source, and the processor and its memory when it has been read. -/
def readSource (wired : Wired Memory) : Source -> UInt8 × Wired Memory
  | .operand place => wired.readOperand place
  | .immediate => wired.fetchByte

/-- The next step combines A with a byte at a source. -/
structure Encodes (wired : Wired Memory) (arithmetic : Arithmetic) (source : Source) : Prop where
  running : wired.cpu.isIdle = false
  code : wired.fetchByte.1 = source.code arithmetic

/-- The byte that such a step combines A with. -/
def combinedByte (wired : Wired Memory) (source : Source) : UInt8 :=
  (wired.fetchByte.2.readSource source).1

theorem Encodes.decoded (encodes : Encodes wired arithmetic source) :
    wired.decoded? = some (source.operation arithmetic, wired.fetchByte.2) := by
  rw [decoded?, encodes.running, if_neg Bool.false_ne_true]
  dsimp only
  rw [encodes.code, Source.decode_code]

/-- A step combines A with the byte, goes on behind the instruction, and has done nothing
else. -/
theorem Encodes.step_eq (encodes : Encodes wired arithmetic source) :
    (∃ timing, wired.step.1 = .ok timing) ∧
      wired.step.2.registers =
        { wired.registers.combine arithmetic (wired.combinedByte source) with
          pc := wired.registers.pc + source.length } ∧
      wired.step.2.memory = (wired.fetchByte.2.readSource source).2.memory := by
  refine ⟨⟨_, congrArg Prod.fst (step_of_decoded encodes.decoded)⟩, ?_⟩
  rw [step_of_decoded encodes.decoded]
  cases source with
  | operand place =>
      constructor
      · change (wired.fetchByte.2.perform (.arithmetic arithmetic place)).registers = _
        rw [registers_perform_arithmetic]
        exact Registers.combine_setPc _ _ _ _
      · cases place <;> rfl
  | immediate =>
      refine ⟨?_, rfl⟩
      change ({ wired.registers with pc := wired.registers.pc + 1 + 1 } : Registers).combine
        arithmetic (wired.combinedByte .immediate) = _
      rw [Registers.combine_setPc, add_one_add_one]
      rfl

/-- On a bus where reading changes nothing, a byte is read without a change. -/
theorem memory_readSource (quiet : Bus.IsQuiet Memory) (wired : Wired Memory) (source : Source) :
    (wired.readSource source).2.memory = wired.memory := by
  cases source with
  | operand place =>
      cases place with
      | memory => exact quiet _ _
      | _ => rfl
  | immediate => exact quiet _ _

/-- The operations on A mean the same in all their encodings.  Wherever the byte is, a step
succeeds and does to A and F what the integers say.  It goes on behind the instruction,
changes no other register, and writes nothing; where reading changes nothing, the memory stays
as it is.  Another step with the same operation, A, byte and carry leaves the same A and F,
whatever its encoding, its other registers and its bus are. -/
theorem encodings_compute (encodes : Encodes wired arithmetic source) :
    let byte := wired.combinedByte source
    let after := wired.step.2.registers
    (∃ timing, wired.step.1 = .ok timing) ∧
      arithmetic.Computes byte wired.registers after ∧
      after = { wired.registers with
        a := after.a, f := after.f, pc := wired.registers.pc + source.length } ∧
      wired.stepWrites = [] ∧
      (Bus.IsQuiet Memory -> wired.step.2.memory = wired.memory) ∧
      ∀ (Other : Type) [Bus Other] (other : Wired Other) (encoding : Source),
        Encodes other arithmetic encoding -> other.combinedByte encoding = byte ->
        other.registers.a = wired.registers.a ->
        arithmetic.carryIn other.registers = arithmetic.carryIn wired.registers ->
        other.step.2.registers.a = after.a ∧ other.step.2.registers.f = after.f := by
  intro byte after
  rcases encodes.step_eq with ⟨answered, registers, memory⟩
  have combined : after = _ := registers
  refine ⟨answered, ?_, ?_, ?_, ?_, ?_⟩
  · have computes := arithmetic.computes_combine wired.registers byte
    rw [combined]
    exact ⟨computes.stored, computes.kept, computes.zero, computes.subtract, computes.halfCarry,
      computes.carry, computes.onlyFlags⟩
  · rw [combined]
    exact congrArg (fun registers : Registers =>
      { registers with pc := wired.registers.pc + source.length }) (Registers.combine_others _ _ _)
  · have defined : wired.operation? = some (source.operation arithmetic) := by
      rw [operation?, encodes.decoded]
      rfl
    rcases exists_performs defined with ⟨opcode, operand, found, performs⟩
    rw [performs.stepWrites, Source.writes_operation]
  · intro quiet
    rw [memory, memory_readSource quiet]
    exact quiet _ _
  · intro Other bus other encoding another same a carry
    rcases another.step_eq with ⟨-, registers, -⟩
    have others := Registers.combine_congr arithmetic byte a carry
    rw [combined, registers, same]
    exact others

/-- A program that takes the byte 12 and a borrow off A, which is 12. -/
def borrowProgram (code next : UInt8) : Wired Board :=
  { cpu := { Cpu.afterBoot with
      registers := { Registers.afterBoot with a := 0x12, f := 0x10, pc := 0xC000 } }
    memory := (Board.empty .green).setAll 0xC000 [code, next] }

/-- Whether the byte is A itself or follows the opcode, FF is left, and a borrow. -/
theorem borrowProgram_computes :
    Encodes (borrowProgram 0x9F 0x00) .sbc (.operand .a) ∧
      Encodes (borrowProgram 0xDE 0x12) .sbc .immediate ∧
      Arithmetic.Computes .sbc 0x12 (borrowProgram 0x9F 0x00).registers
        (borrowProgram 0x9F 0x00).step.2.registers ∧
      (borrowProgram 0x9F 0x00).step.2.registers.a = 0xFF ∧
      (borrowProgram 0xDE 0x12).step.2.registers.a = 0xFF ∧
      (borrowProgram 0xDE 0x12).step.2.registers.f = 0x70 := by
  have first : Encodes (borrowProgram 0x9F 0x00) .sbc (.operand .a) :=
    ⟨rfl, by decide +kernel⟩
  have second : Encodes (borrowProgram 0xDE 0x12) .sbc .immediate :=
    ⟨rfl, by decide +kernel⟩
  rcases encodings_compute first with ⟨-, computes, -, -, -, agree⟩
  have left : (borrowProgram 0x9F 0x00).step.2.registers.a = 0xFF := by
    decide +kernel
  rcases agree Board (borrowProgram 0xDE 0x12) .immediate second (by decide +kernel) rfl rfl with
    ⟨a, -⟩
  exact ⟨first, second, computes, left, a.trans left, by decide +kernel⟩

end Wired

end Dmg
