import Dmg.Cpu.Mnemonic

/-!
# Disassembly

The instruction at an address as a listing shows it, with its operand read from
memory.  A relative branch shows where it leads, and a byte that begins no
instruction is shown as data.
-/

namespace Dmg

structure Disassembly where
  address : UInt16
  length : Nat
  text : String
  deriving DecidableEq, Repr

namespace Immediate

/-- The text of an operand whose first byte is at the given address. -/
def render (immediate : Immediate) (read : UInt16 -> UInt8) (address : UInt16) : String :=
  let byte := read address
  match immediate with
  | absent | padding => ""
  | .byte => "$" ++ Text.hexByte byte
  | word | .address => "$" ++ Text.hexWord (Word.ofBytes (read (address + 1)) byte)
  | highAddress => "$FF" ++ Text.hexByte byte
  | relative => "$" ++ Text.hexWord (address + 1 + Displacement.toWord byte)
  | offset => toString (Displacement.toInt byte)

end Immediate

namespace Disassembly

/-- The line of an operation whose operand is behind its opcode. -/
def ofOperation (read : UInt16 -> UInt8) (address operandAddress : UInt16)
    (operation : Operation) : Disassembly :=
  ⟨address, operation.length,
    operation.text (operation.immediate.render read operandAddress)⟩

/-- The line of the instruction at an address. -/
def lineAt (read : UInt16 -> UInt8) (address : UInt16) : Disassembly :=
  match Opcode.decode (read address) with
  | .operation operation => ofOperation read address (address + 1) operation
  | .extended =>
      ofOperation read address (address + 2) (.decodeExtended (read (address + 1)))
  | .undefined => ⟨address, 1, "DB $" ++ Text.hexByte (read address)⟩

def next (line : Disassembly) : UInt16 :=
  line.address + UInt16.ofNat line.length

/-- Successive lines, the first of them at the given address. -/
def listing (read : UInt16 -> UInt8) (address : UInt16) : Nat -> List Disassembly
  | 0 => []
  | count + 1 =>
      let line := lineAt read address
      line :: listing read line.next count

end Disassembly

end Dmg
