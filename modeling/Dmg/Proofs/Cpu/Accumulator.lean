import Dmg.Proofs.Cpu.Branch

/-!
# Work on A

The instructions that combine A with a byte differ in where they find the byte, and in
nothing else.  A step that executes one of them does to A and the flags what the
operation on bytes says, and changes no other register but the program counter.

The flags are bits of one byte.  Each of them can be read back as it was put in, whatever
is done to the others.
-/

namespace Dmg

/-! ## Flags -/

namespace Flag

def place : Flag -> Nat
  | zero => 7
  | subtract => 6
  | halfCarry => 5
  | carry => 4

theorem place_lt (flag : Flag) : flag.place < 8 := by
  cases flag <;> decide

theorem toBitVec_mask (flag : Flag) : flag.mask.toBitVec = BitVec.twoPow 8 flag.place := by
  cases flag <;> rfl

theorem place_inj {first second : Flag} : first.place = second.place ↔ first = second := by
  cases first <;> cases second <;> decide

end Flag

namespace Registers

theorem flag_eq_getLsbD (registers : Registers) (flag : Flag) :
    registers.flag flag = registers.f.toBitVec.getLsbD flag.place := by
  unfold Registers.flag
  rw [Bool.eq_iff_iff, bne_iff_ne, Ne, ← UInt8.toBitVec_inj, UInt8.toBitVec_and,
    Flag.toBitVec_mask, BitVec.and_twoPow]
  cases raised : registers.f.toBitVec.getLsbD flag.place with
  | false => simp
  | true => cases flag <;> decide

/-- What is put into one flag is found there and in no other. -/
@[simp] theorem flag_setFlag (registers : Registers) (target flag : Flag) (raised : Bool) :
    (registers.setFlag target raised).flag flag =
      if flag = target then raised else registers.flag flag := by
  have inside := flag.place_lt
  have bit : (BitVec.twoPow 8 target.place).getLsbD flag.place = decide (flag = target) := by
    rw [BitVec.getLsbD_twoPow, decide_eq_true target.place_lt, Bool.true_and, decide_eq_decide,
      eq_comm]
    exact Flag.place_inj
  rw [flag_eq_getLsbD, flag_eq_getLsbD, setFlag]
  cases raised with
  | false =>
      rw [if_neg Bool.false_ne_true, UInt8.toBitVec_and, UInt8.toBitVec_not, Flag.toBitVec_mask,
        BitVec.getLsbD_and, BitVec.getLsbD_not, bit, decide_eq_true inside, Bool.true_and]
      by_cases same : flag = target
      · rw [if_pos same, decide_eq_true same, Bool.not_true, Bool.and_false]
      · rw [if_neg same, decide_eq_false same, Bool.not_false, Bool.and_true]
  | true =>
      rw [if_pos rfl, UInt8.toBitVec_or, Flag.toBitVec_mask, BitVec.getLsbD_or, bit]
      by_cases same : flag = target
      · rw [if_pos same, decide_eq_true same, Bool.or_true]
      · rw [if_neg same, decide_eq_false same, Bool.or_false]

/-- What F is packed from is found in its flags. -/
theorem flag_of_pack {registers : Registers} {zero subtract halfCarry carry : Bool}
    (packed : registers.f = Flag.pack zero subtract halfCarry carry) (flag : Flag) :
    registers.flag flag =
      match flag with
      | .zero => zero
      | .subtract => subtract
      | .halfCarry => halfCarry
      | .carry => carry := by
  rw [Registers.flag, packed]
  clear packed
  revert zero subtract halfCarry carry
  cases flag <;> decide

/-- Neither what is combined with A nor what comes of it depends on the program
counter. -/
theorem combine_setPc (registers : Registers) (arithmetic : Arithmetic) (byte : UInt8)
    (pc : UInt16) :
    { registers with pc := pc }.combine arithmetic byte =
      { registers.combine arithmetic byte with pc := pc } := by
  cases arithmetic <;> rfl

end Registers

/-! ## Steps -/

namespace Wired

variable {Memory : Type} [Bus Memory]

/-- What the next step combines A with and how, if it does that: the byte is in a
register, at HL, or behind the opcode. -/
def combined? (wired : Wired Memory) : Option (Arithmetic × UInt8) :=
  match wired.decoded? with
  | some (.arithmetic arithmetic source, fetched) =>
      some (arithmetic, (fetched.readOperand source).1)
  | some (.arithmeticByte arithmetic, fetched) => some (arithmetic, fetched.fetchByte.1)
  | _ => none

theorem registers_perform_arithmetic (wired : Wired Memory) (arithmetic : Arithmetic)
    (source : Operand) :
    (wired.perform (.arithmetic arithmetic source)).registers =
      wired.registers.combine arithmetic (wired.readOperand source).1 := by
  cases source <;> rfl

theorem registers_perform_arithmeticByte (wired : Wired Memory) (arithmetic : Arithmetic) :
    (wired.perform (.arithmeticByte arithmetic)).registers =
      { wired.registers with pc := wired.registers.pc + 1 }.combine arithmetic
        wired.fetchByte.1 :=
  rfl

/-- A step does the same to A and the flags wherever the byte is. -/
theorem step_of_combined {wired : Wired Memory} {arithmetic : Arithmetic} {byte : UInt8}
    (combined : wired.combined? = some (arithmetic, byte)) :
    ∃ timing pc, wired.step.1 = .ok timing ∧
      wired.step.2.registers = { wired.registers.combine arithmetic byte with pc := pc } := by
  unfold combined? at combined
  split at combined
  · next arithmetic source fetched decoded =>
    cases combined
    refine ⟨_, fetched.registers.pc, congrArg Prod.fst (step_of_decoded decoded), ?_⟩
    have executed : wired.step.2.registers =
        (fetched.perform (.arithmetic arithmetic source)).registers := by
      rw [step_of_decoded decoded]
      rfl
    rw [executed, registers_perform_arithmetic, registers_of_decoded decoded,
      Registers.combine_setPc]
  · next arithmetic fetched decoded =>
    cases combined
    refine ⟨_, fetched.registers.pc + 1, congrArg Prod.fst (step_of_decoded decoded), ?_⟩
    have executed : wired.step.2.registers =
        (fetched.perform (.arithmeticByte arithmetic)).registers := by
      rw [step_of_decoded decoded]
      rfl
    rw [executed, registers_perform_arithmeticByte, Registers.combine_setPc,
      registers_of_decoded decoded, Registers.combine_setPc]
  · cases combined

/-- A step that adjusts A changes nothing else but the flags and the program counter. -/
theorem step_of_decimalAdjust {wired : Wired Memory}
    (adjusts : wired.operation? = some .decimalAdjust) :
    ∃ timing pc, wired.step.1 = .ok timing ∧
      wired.step.2.registers = { wired.registers.decimalAdjust with pc := pc } := by
  rcases Option.map_eq_some_iff.mp adjusts with ⟨⟨operation, fetched⟩, decoded, rfl⟩
  refine ⟨_, fetched.registers.pc, congrArg Prod.fst (step_of_decoded decoded), ?_⟩
  have executed : wired.step.2.registers = fetched.registers.decimalAdjust := by
    rw [step_of_decoded decoded]
    rfl
  rw [executed, registers_of_decoded decoded]
  rfl

end Wired

end Dmg
