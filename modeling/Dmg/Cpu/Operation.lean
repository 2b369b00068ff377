import Dmg.Cpu.Registers

/-!
# Operations

What an instruction says to do, apart from the bytes of its operand, which are
still in memory.  An operation fixes how long its operand is and how many clock
cycles it costs; a branch that is taken costs a little more.
-/

namespace Dmg

/-- Where an operand of one byte is: in a register or where HL points. -/
inductive Operand where
  | b
  | c
  | d
  | e
  | h
  | l
  | memory
  | a
  deriving DecidableEq, Repr

/-- The pairs that word operations work on. -/
inductive Pair where
  | bc
  | de
  | hl
  | sp
  deriving DecidableEq, Repr

/-- The pairs that go to the stack and come back from it. -/
inductive StackPair where
  | bc
  | de
  | hl
  | af
  deriving DecidableEq, Repr

/-- The pairs that A is moved through.  HL steps up or down after its use. -/
inductive Pointer where
  | bc
  | de
  | hlUp
  | hlDown
  deriving DecidableEq, Repr

inductive Condition where
  | always
  | nonZero
  | zero
  | noCarry
  | carry
  deriving DecidableEq, Repr

/-- The operations on A and one byte. -/
inductive Arithmetic where
  | add
  | adc
  | sub
  | sbc
  | and
  | xor
  | or
  | cp
  deriving DecidableEq, Repr

/-- The rotations, which lose no bit: through eight bits or through nine, the
ninth being the carry flag. -/
inductive Rotation where
  | rlc
  | rrc
  | rl
  | rr
  deriving DecidableEq, Repr

/-- The movements of bits within a byte. -/
inductive Shift where
  | rotate (rotation : Rotation)
  | sla
  | sra
  | swap
  | srl
  deriving DecidableEq, Repr

/-- An instruction without the bytes of its operand. -/
inductive Operation where
  | nop
  | stop
  | halt
  | disableInterrupts
  | enableInterrupts
  /-- Copy one byte operand into another. -/
  | load (target source : Operand)
  | loadByte (target : Operand)
  | loadWord (target : Pair)
  /-- Move A to where a pair points, and back. -/
  | storeThrough (pointer : Pointer)
  | loadThrough (pointer : Pointer)
  /-- Move A to an address in the last page, given by a byte. -/
  | storeHigh
  | loadHigh
  /-- Move A to an address in the last page, given by C. -/
  | storeHighC
  | loadHighC
  | storeAbsolute
  | loadAbsolute
  | storeStackPointer
  /-- HL becomes the stack pointer plus a displacement. -/
  | loadStackOffset
  | loadStackPointer
  | push (source : StackPair)
  | pop (target : StackPair)
  | increment (target : Operand)
  | decrement (target : Operand)
  | incrementPair (target : Pair)
  | decrementPair (target : Pair)
  | addPair (source : Pair)
  | addStackOffset
  | arithmetic (operation : Arithmetic) (source : Operand)
  | arithmeticByte (operation : Arithmetic)
  | rotateA (rotation : Rotation)
  | decimalAdjust
  | complement
  | setCarry
  | complementCarry
  | jumpRelative (condition : Condition)
  | jump (condition : Condition)
  | jumpHl
  | call (condition : Condition)
  | ret (condition : Condition)
  | reti
  /-- Call one of the eight fixed addresses. -/
  | restart (index : Fin 8)
  | shift (movement : Shift) (target : Operand)
  | testBit (index : Fin 8) (source : Operand)
  | resetBit (index : Fin 8) (target : Operand)
  | setBit (index : Fin 8) (target : Operand)
  deriving DecidableEq, Repr

/-- What the bytes after an opcode are. -/
inductive Immediate where
  /-- There are none. -/
  | absent
  /-- A byte that is fetched and not used. -/
  | padding
  | byte
  | word
  | address
  /-- The low byte of an address in the last page. -/
  | highAddress
  /-- A displacement from the instruction that follows. -/
  | relative
  /-- A displacement from the stack pointer. -/
  | offset
  deriving DecidableEq, Repr

namespace Immediate

/-- How many bytes an operand takes. -/
def size : Immediate -> Nat
  | absent => 0
  | padding | byte | highAddress | relative | offset => 1
  | word | address => 2

end Immediate

namespace Condition

@[inline] def isMet (condition : Condition) (registers : Registers) : Bool :=
  match condition with
  | always => true
  | nonZero => !registers.flag .zero
  | zero => registers.flag .zero
  | noCarry => !registers.flag .carry
  | carry => registers.flag .carry

end Condition

namespace Operation

/-- What follows the opcode of an operation. -/
def immediate : Operation -> Immediate
  | stop => .padding
  | loadByte _ | arithmeticByte _ => .byte
  | loadWord _ => .word
  | storeAbsolute | loadAbsolute | storeStackPointer | jump _ | call _ => .address
  | storeHigh | loadHigh => .highAddress
  | jumpRelative _ => .relative
  | loadStackOffset | addStackOffset => .offset
  | _ => .absent

/-- A register costs nothing to reach; a byte in memory costs extra. -/
@[inline] def operandCycles (operand : Operand) (inRegister inMemory : Nat) : Nat :=
  match operand with
  | .memory => inMemory
  | _ => inRegister

/-- The clock cycles of an operation, for a branch those of the branch that is
not taken. -/
def cycles : Operation -> Nat
  | load .memory _ => 8
  | load _ source => operandCycles source 4 8
  | loadByte target => operandCycles target 8 12
  | loadWord _ => 12
  | storeThrough _ | loadThrough _ | storeHighC | loadHighC => 8
  | storeHigh | loadHigh => 12
  | storeAbsolute | loadAbsolute => 16
  | storeStackPointer => 20
  | loadStackOffset => 12
  | loadStackPointer => 8
  | push _ => 16
  | pop _ => 12
  | increment target | decrement target => operandCycles target 4 12
  | incrementPair _ | decrementPair _ | addPair _ => 8
  | addStackOffset => 16
  | arithmetic _ source => operandCycles source 4 8
  | arithmeticByte _ => 8
  | jumpRelative .always => 12
  | jumpRelative _ => 8
  | jump .always => 16
  | jump _ => 12
  | call .always => 24
  | call _ => 12
  | ret .always => 16
  | ret _ => 8
  | reti | restart _ => 16
  | shift _ target | resetBit _ target | setBit _ target => operandCycles target 8 16
  | testBit _ source => operandCycles source 8 12
  | nop | stop | halt | disableInterrupts | enableInterrupts | rotateA _ | decimalAdjust
  | complement | setCarry | complementCarry | jumpHl => 4

/-- What a branch costs beyond `cycles` when it is taken. -/
@[inline] def takenCycles (condition : Condition) (registers : Registers) (extra : Nat) : Nat :=
  if condition != .always && condition.isMet registers then extra else 0

/-- The clock cycles of an operation that finds the given flags. -/
def cost (operation : Operation) (registers : Registers) : Nat :=
  operation.cycles +
    match operation with
    | jumpRelative condition | jump condition => takenCycles condition registers 4
    | call condition | ret condition => takenCycles condition registers 12
    | _ => 0

end Operation

end Dmg
