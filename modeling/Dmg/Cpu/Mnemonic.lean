import Dmg.Cpu.Decode
import Dmg.Text.Hex

/-!
# Mnemonics

The written form of an operation around the text of its operand.  The table of
opcodes shows a placeholder for the operand, a listing shows its bytes; both
come from the same form, so a listing leaves no placeholder behind.
-/

namespace Dmg

namespace Operand

def name : Operand -> String
  | b => "B"
  | c => "C"
  | d => "D"
  | e => "E"
  | h => "H"
  | l => "L"
  | memory => "(HL)"
  | a => "A"

end Operand

namespace Pair

def name : Pair -> String
  | bc => "BC"
  | de => "DE"
  | hl => "HL"
  | sp => "SP"

end Pair

namespace StackPair

/-- The name of a pair that goes to the stack. -/
def name : StackPair -> String
  | bc => "BC"
  | de => "DE"
  | hl => "HL"
  | af => "AF"

end StackPair

namespace Pointer

/-- The name of a pointer, with the step that it takes after its use. -/
def name : Pointer -> String
  | bc => "(BC)"
  | de => "(DE)"
  | hlUp => "(HL+)"
  | hlDown => "(HL-)"

end Pointer

namespace Condition

/-- The name of a condition; a branch without one shows none. -/
def name : Condition -> String
  | always => ""
  | nonZero => "NZ"
  | zero => "Z"
  | noCarry => "NC"
  | carry => "C"

/-- A condition before the target that it guards. -/
def guard (condition : Condition) (target : String) : String :=
  match condition with
  | always => target
  | _ => condition.name ++ "," ++ target

end Condition

namespace Arithmetic

/-- An operation on A up to its operand.  Those that have a form for pairs, or
take the carry, name A as well. -/
def lead : Arithmetic -> String
  | add => "ADD A,"
  | adc => "ADC A,"
  | sub => "SUB "
  | sbc => "SBC A,"
  | and => "AND "
  | xor => "XOR "
  | or => "OR "
  | cp => "CP "

end Arithmetic

namespace Rotation

def name : Rotation -> String
  | rlc => "RLC"
  | rrc => "RRC"
  | rl => "RL"
  | rr => "RR"

end Rotation

namespace Shift

def name : Shift -> String
  | rotate rotation => rotation.name
  | sla => "SLA"
  | sra => "SRA"
  | swap => "SWAP"
  | srl => "SRL"

end Shift

namespace Immediate

/-- What the table of opcodes shows for an operand. -/
def placeholder : Immediate -> String
  | absent | padding => ""
  | byte => "d8"
  | word => "d16"
  | address => "a16"
  | highAddress => "a8"
  | relative | offset => "r8"

end Immediate

namespace Operation

/-- The name of one of the eight fixed addresses. -/
def restartName (index : Fin 8) : String :=
  Text.hexByte (UInt8.ofNat (8 * index.val)) ++ "H"

def bitName (index : Fin 8) : String :=
  String.singleton (Text.hexDigit index.val)

/-- An operation with the given text in the place of its operand. -/
def text (operation : Operation) (operand : String) : String :=
  match operation with
  | nop => "NOP"
  | stop => "STOP"
  | halt => "HALT"
  | disableInterrupts => "DI"
  | enableInterrupts => "EI"
  | load target source => "LD " ++ target.name ++ "," ++ source.name
  | loadByte target => "LD " ++ target.name ++ "," ++ operand
  | loadWord target => "LD " ++ target.name ++ "," ++ operand
  | storeThrough pointer => "LD " ++ pointer.name ++ ",A"
  | loadThrough pointer => "LD A," ++ pointer.name
  | storeHigh => "LDH (" ++ operand ++ "),A"
  | loadHigh => "LDH A,(" ++ operand ++ ")"
  | storeHighC => "LD (C),A"
  | loadHighC => "LD A,(C)"
  | storeAbsolute => "LD (" ++ operand ++ "),A"
  | loadAbsolute => "LD A,(" ++ operand ++ ")"
  | storeStackPointer => "LD (" ++ operand ++ "),SP"
  | loadStackOffset => "LD HL,SP+" ++ operand
  | loadStackPointer => "LD SP,HL"
  | push source => "PUSH " ++ source.name
  | pop target => "POP " ++ target.name
  | increment target => "INC " ++ target.name
  | decrement target => "DEC " ++ target.name
  | incrementPair target => "INC " ++ target.name
  | decrementPair target => "DEC " ++ target.name
  | addPair source => "ADD HL," ++ source.name
  | addStackOffset => "ADD SP," ++ operand
  | arithmetic operation source => operation.lead ++ source.name
  | arithmeticByte operation => operation.lead ++ operand
  | rotateA rotation => rotation.name ++ "A"
  | decimalAdjust => "DAA"
  | complement => "CPL"
  | setCarry => "SCF"
  | complementCarry => "CCF"
  | jumpRelative condition => "JR " ++ condition.guard operand
  | jump condition => "JP " ++ condition.guard operand
  | jumpHl => "JP HL"
  | call condition => "CALL " ++ condition.guard operand
  | ret .always => "RET"
  | ret condition => "RET " ++ condition.name
  | reti => "RETI"
  | restart index => "RST " ++ restartName index
  | shift movement target => movement.name ++ " " ++ target.name
  | testBit index source => "BIT " ++ bitName index ++ "," ++ source.name
  | resetBit index target => "RES " ++ bitName index ++ "," ++ target.name
  | setBit index target => "SET " ++ bitName index ++ "," ++ target.name

/-- An operation as the table of opcodes shows it. -/
def mnemonic (operation : Operation) : String :=
  operation.text operation.immediate.placeholder

/-- Whether the opcode of an operation takes two bytes. -/
def isExtended : Operation -> Bool
  | shift _ _ | testBit _ _ | resetBit _ _ | setBit _ _ => true
  | _ => false

/-- The bytes of an instruction, opcode and operand together. -/
def length (operation : Operation) : Nat :=
  (if operation.isExtended then 2 else 1) + operation.immediate.size

end Operation

namespace Opcode

/-- A first opcode byte as the table shows it. -/
def mnemonic : Opcode -> String
  | operation decoded => decoded.mnemonic
  | extended => "PREFIX CB"
  | undefined => "ILLEGAL"

/-- The bytes of the instruction that begins with a first opcode byte, or of
the byte alone where its instruction is not known from it. -/
def length : Opcode -> Nat
  | operation decoded => decoded.length
  | extended | undefined => 1

/-- The clock cycles that the table gives for a first opcode byte. -/
def cycles : Opcode -> Nat
  | operation decoded => decoded.cycles
  | extended => 0
  | undefined => 4

end Opcode

end Dmg
