import Dmg.Cpu.Arithmetic
import Dmg.Cpu.State

/-!
# Executing an operation

When an operation begins, the program counter points past its opcode.  The
operation fetches its own operand, so that after it the program counter points
at the next instruction unless the operation says otherwise.
-/

namespace Dmg

namespace Registers

@[inline] def pair (registers : Registers) : Pair -> UInt16
  | .bc => registers.bc
  | .de => registers.de
  | .hl => registers.hl
  | .sp => registers.sp

@[inline] def setPair (registers : Registers) (target : Pair) (word : UInt16) : Registers :=
  match target with
  | .bc => registers.setBc word
  | .de => registers.setDe word
  | .hl => registers.setHl word
  | .sp => { registers with sp := word }

/-- The value of a pair that goes to the stack. -/
@[inline] def stackPair (registers : Registers) : StackPair -> UInt16
  | .bc => registers.bc
  | .de => registers.de
  | .hl => registers.hl
  | .af => registers.af

/-- Store into a pair that comes from the stack. -/
@[inline] def setStackPair (registers : Registers) (target : StackPair) (word : UInt16) :
    Registers :=
  match target with
  | .bc => registers.setBc word
  | .de => registers.setDe word
  | .hl => registers.setHl word
  | .af => registers.setAf word

@[inline] def pointer (registers : Registers) : Pointer -> UInt16
  | .bc => registers.bc
  | .de => registers.de
  | .hlUp | .hlDown => registers.hl

/-- The step that a pointer takes after its use. -/
@[inline] def stepPointer (registers : Registers) : Pointer -> Registers
  | .bc | .de => registers
  | .hlUp => registers.setHl (registers.hl + 1)
  | .hlDown => registers.setHl (registers.hl - 1)

end Registers

/-- An address in the last page. -/
@[inline] def highPage (low : UInt8) : UInt16 :=
  Word.ofBytes 0xFF low

namespace Wired

variable {Memory : Type} [Bus Memory]

@[specialize] def readOperand (wired : Wired Memory) (source : Operand) :
    UInt8 × Wired Memory :=
  match source with
  | .b => (wired.registers.b, wired)
  | .c => (wired.registers.c, wired)
  | .d => (wired.registers.d, wired)
  | .e => (wired.registers.e, wired)
  | .h => (wired.registers.h, wired)
  | .l => (wired.registers.l, wired)
  | .memory => wired.readByte wired.registers.hl
  | .a => (wired.registers.a, wired)

@[specialize] def writeOperand (wired : Wired Memory) (target : Operand) (byte : UInt8) :
    Wired Memory :=
  match target with
  | .b => wired.mapRegisters fun registers => { registers with b := byte }
  | .c => wired.mapRegisters fun registers => { registers with c := byte }
  | .d => wired.mapRegisters fun registers => { registers with d := byte }
  | .e => wired.mapRegisters fun registers => { registers with e := byte }
  | .h => wired.mapRegisters fun registers => { registers with h := byte }
  | .l => wired.mapRegisters fun registers => { registers with l := byte }
  | .memory => wired.writeByte wired.registers.hl byte
  | .a => wired.mapRegisters fun registers => { registers with a := byte }

@[inline] def loadA (wired : Wired Memory) (address : UInt16) : Wired Memory :=
  let found := wired.readByte address
  found.2.mapRegisters fun registers => { registers with a := found.1 }

/-- Put the program counter on the stack and go on at an address. -/
@[inline] def call (wired : Wired Memory) (address : UInt16) : Wired Memory :=
  (wired.push wired.registers.pc).jump address

/-- Go on at the address on top of the stack. -/
@[inline] def ret (wired : Wired Memory) : Wired Memory :=
  let popped := wired.pop
  popped.2.jump popped.1

@[specialize] def execute (wired : Wired Memory) (operation : Operation) : Wired Memory :=
  match operation with
  | .nop => wired
  | .stop =>
      let fetched := wired.fetchByte
      { fetched.2 with cpu := { fetched.2.cpu with stopped := true } }
  | .halt => { wired with cpu := { wired.cpu with halted := true } }
  | .disableInterrupts => { wired with cpu := { wired.cpu with ime := false } }
  | .enableInterrupts => { wired with cpu := { wired.cpu with enablePending := true } }
  | .load target source =>
      let operand := wired.readOperand source
      operand.2.writeOperand target operand.1
  | .loadByte target =>
      let fetched := wired.fetchByte
      fetched.2.writeOperand target fetched.1
  | .loadWord target =>
      let fetched := wired.fetchWord
      fetched.2.mapRegisters fun registers => registers.setPair target fetched.1
  | .storeThrough pointer =>
      let stored := wired.writeByte (wired.registers.pointer pointer) wired.registers.a
      stored.mapRegisters fun registers => registers.stepPointer pointer
  | .loadThrough pointer =>
      let found := wired.readByte (wired.registers.pointer pointer)
      found.2.mapRegisters fun registers => { registers.stepPointer pointer with a := found.1 }
  | .storeHigh =>
      let fetched := wired.fetchByte
      fetched.2.writeByte (highPage fetched.1) fetched.2.registers.a
  | .loadHigh =>
      let fetched := wired.fetchByte
      fetched.2.loadA (highPage fetched.1)
  | .storeHighC => wired.writeByte (highPage wired.registers.c) wired.registers.a
  | .loadHighC => wired.loadA (highPage wired.registers.c)
  | .storeAbsolute =>
      let fetched := wired.fetchWord
      fetched.2.writeByte fetched.1 fetched.2.registers.a
  | .loadAbsolute =>
      let fetched := wired.fetchWord
      fetched.2.loadA fetched.1
  | .storeStackPointer =>
      let fetched := wired.fetchWord
      { fetched.2 with
        memory := Bus.writeWord fetched.2.memory fetched.1 fetched.2.registers.sp }
  | .loadStackOffset =>
      let fetched := wired.fetchByte
      fetched.2.mapRegisters fun registers =>
        (registers.flagStackOffset fetched.1).setHl (registers.stackOffset fetched.1)
  | .loadStackPointer =>
      wired.mapRegisters fun registers => { registers with sp := registers.hl }
  | .push source => wired.push (wired.registers.stackPair source)
  | .pop target =>
      let popped := wired.pop
      popped.2.mapRegisters fun registers => registers.setStackPair target popped.1
  | .increment target =>
      let operand := wired.readOperand target
      (operand.2.mapRegisters fun registers =>
        registers.flagIncrement operand.1).writeOperand target (operand.1 + 1)
  | .decrement target =>
      let operand := wired.readOperand target
      (operand.2.mapRegisters fun registers =>
        registers.flagDecrement operand.1).writeOperand target (operand.1 - 1)
  | .incrementPair target =>
      wired.mapRegisters fun registers => registers.setPair target (registers.pair target + 1)
  | .decrementPair target =>
      wired.mapRegisters fun registers => registers.setPair target (registers.pair target - 1)
  | .addPair source =>
      wired.mapRegisters fun registers => registers.addHl (registers.pair source)
  | .addStackOffset =>
      let fetched := wired.fetchByte
      fetched.2.mapRegisters fun registers =>
        { registers.flagStackOffset fetched.1 with sp := registers.stackOffset fetched.1 }
  | .arithmetic arithmetic source =>
      let operand := wired.readOperand source
      operand.2.mapRegisters fun registers => registers.combine arithmetic operand.1
  | .arithmeticByte arithmetic =>
      let fetched := wired.fetchByte
      fetched.2.mapRegisters fun registers => registers.combine arithmetic fetched.1
  | .rotateA rotation => wired.mapRegisters fun registers => registers.rotateA rotation
  | .decimalAdjust => wired.mapRegisters Registers.decimalAdjust
  | .complement => wired.mapRegisters Registers.complement
  | .setCarry => wired.mapRegisters fun registers => registers.putCarry true
  | .complementCarry =>
      wired.mapRegisters fun registers => registers.putCarry (!registers.flag .carry)
  | .jumpRelative condition =>
      let fetched := wired.fetchByte
      if condition.isMet fetched.2.registers then
        fetched.2.jump (fetched.2.registers.pc + Displacement.toWord fetched.1)
      else fetched.2
  | .jump condition =>
      let fetched := wired.fetchWord
      if condition.isMet fetched.2.registers then fetched.2.jump fetched.1 else fetched.2
  | .jumpHl => wired.jump wired.registers.hl
  | .call condition =>
      let fetched := wired.fetchWord
      if condition.isMet fetched.2.registers then fetched.2.call fetched.1 else fetched.2
  | .ret condition => if condition.isMet wired.registers then wired.ret else wired
  | .reti =>
      let returned := wired.ret
      { returned with cpu := { returned.cpu with ime := true } }
  | .restart index => wired.call (UInt16.ofNat (8 * index.val))
  | .shift movement target =>
      let operand := wired.readOperand target
      let shifted := operand.2.registers.shift movement operand.1
      (operand.2.mapRegisters fun _ => shifted.2).writeOperand target shifted.1
  | .testBit index source =>
      let operand := wired.readOperand source
      operand.2.mapRegisters fun registers => registers.testBit index operand.1
  | .resetBit index target =>
      let operand := wired.readOperand target
      operand.2.writeOperand target (operand.1 &&& ~~~Registers.bitMask index)
  | .setBit index target =>
      let operand := wired.readOperand target
      operand.2.writeOperand target (operand.1 ||| Registers.bitMask index)

end Wired

end Dmg
