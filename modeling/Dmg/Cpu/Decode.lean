import Dmg.Cpu.Operation

/-!
# Opcodes

An opcode is eight bits: two that choose a quarter of the table, three that
choose a row and three that choose a column.  Rows and columns name operands,
pairs, conditions and operations by the same three bits throughout, so the
table is read off its fields instead of being written out.

One opcode announces a second byte, which selects from a table of bit
operations that has no gaps.  Eleven opcodes mean nothing.
-/

namespace Dmg

/-- What a first opcode byte stands for. -/
inductive Opcode where
  | operation (decoded : Operation)
  /-- The next byte selects a bit operation. -/
  | extended
  /-- No instruction begins with this byte. -/
  | undefined
  deriving DecidableEq, Repr

namespace Operand

/-- The operand that three bits name. -/
@[inline] def ofField (field : Fin 8) : Operand :=
  match field with
  | 0 => b
  | 1 => c
  | 2 => d
  | 3 => e
  | 4 => h
  | 5 => l
  | 6 => memory
  | 7 => a

end Operand

namespace Arithmetic

/-- The operation on A that three bits name. -/
@[inline] def ofField (field : Fin 8) : Arithmetic :=
  match field with
  | 0 => add
  | 1 => adc
  | 2 => sub
  | 3 => sbc
  | 4 => and
  | 5 => xor
  | 6 => or
  | 7 => cp

end Arithmetic

namespace Shift

/-- The movement of bits that three bits name. -/
@[inline] def ofField (field : Fin 8) : Shift :=
  match field with
  | 0 => rotate .rlc
  | 1 => rotate .rrc
  | 2 => rotate .rl
  | 3 => rotate .rr
  | 4 => sla
  | 5 => sra
  | 6 => swap
  | 7 => srl

end Shift

namespace Opcode

/-- The upper two bits of an opcode. -/
@[inline] def quarter (code : UInt8) : Fin 4 :=
  ⟨code.toNat / 64, by have bound := code.toNat_lt; omega⟩

/-- The middle three bits of an opcode. -/
@[inline] def row (code : UInt8) : Fin 8 :=
  ⟨code.toNat / 8 % 8, Nat.mod_lt _ (by decide)⟩

theorem column_lt (code : UInt8) : code.toNat % 8 < 8 :=
  Nat.mod_lt _ (by decide)

/-- The lower three bits of an opcode. -/
@[inline] def column (code : UInt8) : Fin 8 :=
  ⟨code.toNat % 8, column_lt code⟩

/-- Jumps, word loads, steps up and down, byte loads and operations on A or F
alone. -/
def firstQuarter (row column : Fin 8) : Operation :=
  match column, row with
  | 0, 0 => .nop
  | 0, 1 => .storeStackPointer
  | 0, 2 => .stop
  | 0, 3 => .jumpRelative .always
  | 0, 4 => .jumpRelative .nonZero
  | 0, 5 => .jumpRelative .zero
  | 0, 6 => .jumpRelative .noCarry
  | 0, 7 => .jumpRelative .carry
  | 1, 0 => .loadWord .bc
  | 1, 1 => .addPair .bc
  | 1, 2 => .loadWord .de
  | 1, 3 => .addPair .de
  | 1, 4 => .loadWord .hl
  | 1, 5 => .addPair .hl
  | 1, 6 => .loadWord .sp
  | 1, 7 => .addPair .sp
  | 2, 0 => .storeThrough .bc
  | 2, 1 => .loadThrough .bc
  | 2, 2 => .storeThrough .de
  | 2, 3 => .loadThrough .de
  | 2, 4 => .storeThrough .hlUp
  | 2, 5 => .loadThrough .hlUp
  | 2, 6 => .storeThrough .hlDown
  | 2, 7 => .loadThrough .hlDown
  | 3, 0 => .incrementPair .bc
  | 3, 1 => .decrementPair .bc
  | 3, 2 => .incrementPair .de
  | 3, 3 => .decrementPair .de
  | 3, 4 => .incrementPair .hl
  | 3, 5 => .decrementPair .hl
  | 3, 6 => .incrementPair .sp
  | 3, 7 => .decrementPair .sp
  | 4, row => .increment (.ofField row)
  | 5, row => .decrement (.ofField row)
  | 6, row => .loadByte (.ofField row)
  | 7, 0 => .rotateA .rlc
  | 7, 1 => .rotateA .rrc
  | 7, 2 => .rotateA .rl
  | 7, 3 => .rotateA .rr
  | 7, 4 => .decimalAdjust
  | 7, 5 => .complement
  | 7, 6 => .setCarry
  | 7, 7 => .complementCarry

/-- Returns, calls, the stack, jumps, the last page, and operations on A and a
byte. -/
def lastQuarter (row column : Fin 8) : Opcode :=
  match column, row with
  | 0, 0 => .operation (.ret .nonZero)
  | 0, 1 => .operation (.ret .zero)
  | 0, 2 => .operation (.ret .noCarry)
  | 0, 3 => .operation (.ret .carry)
  | 0, 4 => .operation .storeHigh
  | 0, 5 => .operation .addStackOffset
  | 0, 6 => .operation .loadHigh
  | 0, 7 => .operation .loadStackOffset
  | 1, 0 => .operation (.pop .bc)
  | 1, 1 => .operation (.ret .always)
  | 1, 2 => .operation (.pop .de)
  | 1, 3 => .operation .reti
  | 1, 4 => .operation (.pop .hl)
  | 1, 5 => .operation .jumpHl
  | 1, 6 => .operation (.pop .af)
  | 1, 7 => .operation .loadStackPointer
  | 2, 0 => .operation (.jump .nonZero)
  | 2, 1 => .operation (.jump .zero)
  | 2, 2 => .operation (.jump .noCarry)
  | 2, 3 => .operation (.jump .carry)
  | 2, 4 => .operation .storeHighC
  | 2, 5 => .operation .storeAbsolute
  | 2, 6 => .operation .loadHighC
  | 2, 7 => .operation .loadAbsolute
  | 3, 0 => .operation (.jump .always)
  | 3, 1 => .extended
  | 3, 6 => .operation .disableInterrupts
  | 3, 7 => .operation .enableInterrupts
  | 4, 0 => .operation (.call .nonZero)
  | 4, 1 => .operation (.call .zero)
  | 4, 2 => .operation (.call .noCarry)
  | 4, 3 => .operation (.call .carry)
  | 5, 0 => .operation (.push .bc)
  | 5, 1 => .operation (.call .always)
  | 5, 2 => .operation (.push .de)
  | 5, 4 => .operation (.push .hl)
  | 5, 6 => .operation (.push .af)
  | 6, row => .operation (.arithmeticByte (.ofField row))
  | 7, row => .operation (.restart row)
  | _, _ => .undefined

/-- The meaning of a first opcode byte.  The code that would load memory from
memory halts instead. -/
def decode (code : UInt8) : Opcode :=
  match quarter code with
  | 0 => .operation (firstQuarter (row code) (column code))
  | 1 =>
      if code = 0x76 then .operation .halt
      else .operation (.load (.ofField (row code)) (.ofField (column code)))
  | 2 => .operation (.arithmetic (.ofField (row code)) (.ofField (column code)))
  | 3 => lastQuarter (row code) (column code)

end Opcode

namespace Operation

/-- The meaning of the byte after the extending opcode. -/
def decodeExtended (code : UInt8) : Operation :=
  match Opcode.quarter code with
  | 0 => .shift (.ofField (Opcode.row code)) (.ofField (Opcode.column code))
  | 1 => .testBit (Opcode.row code) (.ofField (Opcode.column code))
  | 2 => .resetBit (Opcode.row code) (.ofField (Opcode.column code))
  | 3 => .setBit (Opcode.row code) (.ofField (Opcode.column code))

end Operation

end Dmg
