import Dmg.Proofs.Machine.Turn

/-!
# Where the processor goes on

An operation leaves the program counter behind its operand unless it is a branch
that is taken.  A branch finds its condition in the flags, which fetching the
operand does not touch, and what it costs beyond the table depends on the same
condition.
-/

namespace Dmg

namespace Condition

/-- A condition sees the flags and nothing else of the registers. -/
theorem isMet_congr {first second : Registers} (flags : first.f = second.f)
    (condition : Condition) : condition.isMet first = condition.isMet second := by
  cases condition <;> simp only [isMet, Registers.flag, flags]

end Condition

namespace Operation

/-- What a branch depends on, if the operation is a branch. -/
def branch? : Operation -> Option Condition
  | jumpRelative condition | jump condition | call condition | ret condition => some condition
  | jumpHl | reti | restart _ => some .always
  | _ => none

/-- Whether an operation that finds the given flags goes on elsewhere than behind
its operand. -/
def isTaken (operation : Operation) (registers : Registers) : Bool :=
  match operation.branch? with
  | none => false
  | some condition => condition.isMet registers

theorem isTaken_congr {first second : Registers} (flags : first.f = second.f)
    (operation : Operation) : operation.isTaken first = operation.isTaken second := by
  rw [isTaken, isTaken]
  split
  · rfl
  · exact Condition.isMet_congr flags _

/-- What a branch costs beyond the table when it is taken. -/
def surcharge : Operation -> Nat
  | jumpRelative .always | jump .always | call .always | ret .always => 0
  | jumpRelative _ | jump _ => 4
  | call _ | ret _ => 12
  | _ => 0

/-- The table gives the cost of every operation but a conditional branch that is
taken. -/
theorem cost_eq (operation : Operation) (registers : Registers) :
    operation.cost registers =
      operation.cycles + if operation.isTaken registers then operation.surcharge else 0 := by
  cases operation with
  | jumpRelative condition
  | jump condition
  | call condition
  | ret condition =>
      rw [cost, isTaken, branch?]
      cases condition <;> rfl
  | _ => simp only [cost, surcharge, ite_self]

end Operation

namespace Registers

variable (registers : Registers)

@[simp] theorem pc_setPair (target : Pair) (word : UInt16) :
    (registers.setPair target word).pc = registers.pc := by
  cases target <;> rfl

@[simp] theorem pc_setStackPair (target : StackPair) (word : UInt16) :
    (registers.setStackPair target word).pc = registers.pc := by
  cases target <;> rfl

@[simp] theorem pc_stepPointer (pointer : Pointer) :
    (registers.stepPointer pointer).pc = registers.pc := by
  cases pointer <;> rfl

@[simp] theorem pc_combine (operation : Arithmetic) (byte : UInt8) :
    (registers.combine operation byte).pc = registers.pc := by
  cases operation <;> rfl

@[simp] theorem pc_flagIncrement (byte : UInt8) :
    (registers.flagIncrement byte).pc = registers.pc :=
  rfl

@[simp] theorem pc_flagDecrement (byte : UInt8) :
    (registers.flagDecrement byte).pc = registers.pc :=
  rfl

@[simp] theorem pc_shift (movement : Shift) (byte : UInt8) :
    (registers.shift movement byte).2.pc = registers.pc :=
  rfl

@[simp] theorem pc_testBit (index : Fin 8) (byte : UInt8) :
    (registers.testBit index byte).pc = registers.pc :=
  rfl

end Registers

namespace Wired

variable {Memory : Type}

@[simp] theorem pc_mapRegisters (wired : Wired Memory) (change : Registers -> Registers) :
    (wired.mapRegisters change).registers.pc = (change wired.registers).pc :=
  rfl

variable [Bus Memory]

@[simp] theorem pc_readByte (wired : Wired Memory) (address : UInt16) :
    (wired.readByte address).2.registers.pc = wired.registers.pc :=
  rfl

@[simp] theorem pc_writeByte (wired : Wired Memory) (address : UInt16) (byte : UInt8) :
    (wired.writeByte address byte).registers.pc = wired.registers.pc :=
  rfl

@[simp] theorem pc_pop (wired : Wired Memory) :
    wired.pop.2.registers.pc = wired.registers.pc :=
  rfl

theorem registers_readOperand (wired : Wired Memory) (source : Operand) :
    (wired.readOperand source).2.registers = wired.registers := by
  cases source <;> rfl

@[simp] theorem pc_readOperand (wired : Wired Memory) (source : Operand) :
    (wired.readOperand source).2.registers.pc = wired.registers.pc := by
  cases source <;> rfl

@[simp] theorem pc_writeOperand (wired : Wired Memory) (target : Operand) (byte : UInt8) :
    (wired.writeOperand target byte).registers.pc = wired.registers.pc := by
  cases target <;> rfl

@[simp] theorem pc_fetchByte (wired : Wired Memory) :
    wired.fetchByte.2.registers.pc = wired.registers.pc + 1 :=
  rfl

@[simp] theorem pc_fetchWord (wired : Wired Memory) :
    wired.fetchWord.2.registers.pc = wired.registers.pc + 2 :=
  UInt16.add_assoc wired.registers.pc 1 1

theorem isMet_fetchByte (wired : Wired Memory) (condition : Condition) :
    condition.isMet wired.fetchByte.2.registers = condition.isMet wired.registers :=
  Condition.isMet_congr rfl condition

theorem isMet_fetchWord (wired : Wired Memory) (condition : Condition) :
    condition.isMet wired.fetchWord.2.registers = condition.isMet wired.registers :=
  Condition.isMet_congr rfl condition

/-- Fetching an opcode moves the program counter and changes no other register. -/
theorem registers_of_decoded {wired fetched : Wired Memory} {operation : Operation}
    (decoded : wired.decoded? = some (operation, fetched)) :
    fetched.registers = { wired.registers with pc := fetched.registers.pc } := by
  by_cases idle : wired.cpu.isIdle = true
  · rw [decoded?, if_pos idle] at decoded
    cases decoded
  · rw [decoded?, if_neg idle] at decoded
    dsimp only at decoded
    split at decoded
    · cases decoded
      rfl
    · cases decoded
      rfl
    · cases decoded

/-- An operation that is not taken leaves the program counter behind its operand. -/
theorem pc_execute_of_not_taken (wired : Wired Memory) {operation : Operation}
    (falls : operation.isTaken wired.registers = false) :
    (wired.execute operation).registers.pc =
      wired.registers.pc + UInt16.ofNat operation.immediate.size := by
  cases operation with
  | jumpRelative condition =>
      have unmet : condition.isMet wired.registers = false := falls
      rw [execute, isMet_fetchByte, unmet]
      exact pc_fetchByte wired
  | jump condition
  | call condition =>
      have unmet : condition.isMet wired.registers = false := falls
      rw [execute, isMet_fetchWord, unmet]
      exact pc_fetchWord wired
  | ret condition =>
      have unmet : condition.isMet wired.registers = false := falls
      rw [execute, unmet]
      exact (UInt16.add_zero _).symm
  | jumpHl | reti | restart index => cases falls
  | nop | halt | disableInterrupts | enableInterrupts | storeHighC | loadHighC | loadStackPointer
  | push source | addPair source | rotateA rotation | decimalAdjust | complement | setCarry
  | complementCarry => exact (UInt16.add_zero _).symm
  | stop | storeHigh | loadHigh | loadStackOffset | addStackOffset => exact pc_fetchByte wired
  | storeAbsolute | loadAbsolute | storeStackPointer => exact pc_fetchWord wired
  | _ => simp [execute, Operation.immediate, Immediate.size]

end Wired

end Dmg
