import Dmg.Cpu.Step

/-!
# What an operation does besides its registers

Beside the registers the processor keeps two kinds of waiting, the permission
for interrupts, the latch of EI and the time of its last step.  Of the
operations only five touch any of these, and each touches one.

The equations here compare processors whose registers have been cleared.  So
every action on registers and on the bus disappears from them, whatever it
stores and wherever it stores it.
-/

namespace Dmg

namespace Cpu

/-- The processor without its registers. -/
def control (cpu : Cpu) : Cpu :=
  { cpu with registers := .cleared }

@[simp] theorem control_mapRegisters (cpu : Cpu) (change : Registers -> Registers) :
    (cpu.mapRegisters change).control = cpu.control := rfl

end Cpu

namespace Operation

/-- What an operation switches in a processor besides its registers. -/
def switch (operation : Operation) (cpu : Cpu) : Cpu :=
  match operation with
  | stop => { cpu with stopped := true }
  | halt => { cpu with halted := true }
  | disableInterrupts => { cpu with ime := false }
  | enableInterrupts => { cpu with enablePending := true }
  | reti => { cpu with ime := true }
  | _ => cpu

end Operation

namespace Wired

variable {Memory : Type}

/-! ## Actions that move bytes -/

@[simp] theorem control_mapRegisters (wired : Wired Memory) (change : Registers -> Registers) :
    (wired.mapRegisters change).cpu.control = wired.cpu.control := rfl

@[simp] theorem control_jump (wired : Wired Memory) (address : UInt16) :
    (wired.jump address).cpu.control = wired.cpu.control := rfl

variable [Bus Memory]

@[simp] theorem control_fetchByte (wired : Wired Memory) :
    wired.fetchByte.2.cpu.control = wired.cpu.control := rfl

@[simp] theorem control_fetchWord (wired : Wired Memory) :
    wired.fetchWord.2.cpu.control = wired.cpu.control := rfl

@[simp] theorem control_call (wired : Wired Memory) (address : UInt16) :
    (wired.call address).cpu.control = wired.cpu.control := rfl

@[simp] theorem control_ret (wired : Wired Memory) :
    wired.ret.cpu.control = wired.cpu.control := rfl

@[simp] theorem control_readOperand (wired : Wired Memory) (source : Operand) :
    (wired.readOperand source).2.cpu.control = wired.cpu.control := by
  cases source <;> rfl

@[simp] theorem control_writeOperand (wired : Wired Memory) (target : Operand) (byte : UInt8) :
    (wired.writeOperand target byte).cpu.control = wired.cpu.control := by
  cases target <;> rfl

/-! ## Operations -/

/-- An operation switches what its name says and nothing else. -/
theorem control_execute (wired : Wired Memory) (operation : Operation) :
    (wired.execute operation).cpu.control = (operation.switch wired.cpu).control := by
  cases operation with
  | load target source
  | loadByte target
  | increment target
  | decrement target
  | arithmetic combined source
  | shift movement target
  | testBit index source
  | resetBit index target
  | setBit index target =>
      simp only [execute, Operation.switch, control_writeOperand, control_mapRegisters,
        control_readOperand, control_fetchByte]
  | jumpRelative condition
  | jump condition
  | call condition
  | ret condition =>
      simp only [execute, Operation.switch]
      split <;>
        simp only [control_jump, control_call, control_ret, control_fetchByte, control_fetchWord]
  | _ => rfl

theorem ime_execute (wired : Wired Memory) (operation : Operation) :
    (wired.execute operation).cpu.ime = (operation.switch wired.cpu).ime :=
  (congrArg Cpu.ime (wired.control_execute operation) :)

theorem enablePending_execute (wired : Wired Memory) (operation : Operation) :
    (wired.execute operation).cpu.enablePending = (operation.switch wired.cpu).enablePending :=
  (congrArg Cpu.enablePending (wired.control_execute operation) :)

end Wired

end Dmg
