import Dmg.Bus
import Dmg.Cpu.Registers
import Dmg.Timing

/-!
# The processor and its bus

The processor holds the registers and what it has to remember between
instructions.  It works on a bus that belongs to someone else, so the actions
below are actions of the two together: reading and writing operands, fetching
what the program counter points at, and the stack.
-/

namespace Dmg

/-- The state of the processor between instructions. -/
@[ext] structure Cpu where
  registers : Registers
  /-- Whether requests may interrupt the program. -/
  ime : Bool
  /-- Waiting for a permitted request. -/
  halted : Bool
  /-- Waiting for someone outside. -/
  stopped : Bool
  /-- The last instruction asked for interrupts, which the next one turns on. -/
  enablePending : Bool
  /-- What the last step or dispatch took. -/
  timing : Timing
  deriving DecidableEq, Repr

namespace Cpu

/-- The processor when a cartridge takes over from the start-up program. -/
def afterBoot : Cpu :=
  ⟨.afterBoot, false, false, false, false, .zero⟩

/-- The processor when power comes on. -/
def poweredOn : Cpu :=
  { afterBoot with registers := .cleared }

instance : Inhabited Cpu := ⟨afterBoot⟩

/-- Forget everything, and start where the start-up program would have ended. -/
def reset (cpu : Cpu) : Cpu :=
  { cpu with
    registers := cpu.registers.handOver
    ime := false
    halted := false
    stopped := false
    enablePending := false
    timing := .zero }

/-- Forget everything, and start where the start-up program begins. -/
def powerOn (cpu : Cpu) : Cpu :=
  { cpu.reset with registers := .cleared }

theorem reset_eq (cpu : Cpu) : cpu.reset = afterBoot := by
  rw [reset, Registers.handOver_eq]
  rfl

theorem powerOn_eq (cpu : Cpu) : cpu.powerOn = poweredOn := by
  rw [powerOn, reset_eq]
  rfl

/-- Leave both kinds of waiting. -/
def wake (cpu : Cpu) : Cpu :=
  { cpu with stopped := false, halted := false }

/-- Whether the processor waits instead of fetching. -/
@[inline] def isIdle (cpu : Cpu) : Bool :=
  cpu.halted || cpu.stopped

@[inline] def mapRegisters (cpu : Cpu) (change : Registers -> Registers) : Cpu :=
  { cpu with registers := change cpu.registers }

end Cpu

/-- A processor on its bus.  What is behind the bus is left open, so that a program can be
run on a whole board, on plain memory, or on a bus that records what crosses it. -/
@[ext] structure Wired (Memory : Type) where
  cpu : Cpu
  memory : Memory

namespace Wired

variable {Memory : Type}

@[inline] def registers (wired : Wired Memory) : Registers :=
  wired.cpu.registers

/-- Change the registers of the processor. -/
@[inline] def mapRegisters (wired : Wired Memory) (change : Registers -> Registers) :
    Wired Memory :=
  { wired with cpu := wired.cpu.mapRegisters change }

@[inline] def jump (wired : Wired Memory) (address : UInt16) : Wired Memory :=
  wired.mapRegisters fun registers => { registers with pc := address }

variable [Bus Memory]

@[inline] def readByte (wired : Wired Memory) (address : UInt16) : UInt8 × Wired Memory :=
  let found := Bus.read wired.memory address
  (found.1, { wired with memory := found.2 })

@[inline] def writeByte (wired : Wired Memory) (address : UInt16) (byte : UInt8) :
    Wired Memory :=
  { wired with memory := Bus.write wired.memory address byte }

/-- The byte that the program counter points at, which then points past it. -/
@[inline] def fetchByte (wired : Wired Memory) : UInt8 × Wired Memory :=
  let found := wired.readByte wired.registers.pc
  (found.1, found.2.mapRegisters fun registers => { registers with pc := registers.pc + 1 })

/-- The word that the program counter points at, low byte first. -/
@[inline] def fetchWord (wired : Wired Memory) : UInt16 × Wired Memory :=
  let low := wired.fetchByte
  let high := low.2.fetchByte
  (Word.ofBytes high.1 low.1, high.2)

/-- Put a word on the stack, high byte first, each byte below the one before. -/
@[inline] def push (wired : Wired Memory) (word : UInt16) : Wired Memory :=
  let sp := wired.registers.sp
  let wired := wired.writeByte (sp - 1) (Word.high word)
  let wired := wired.writeByte (sp - 2) (Word.low word)
  wired.mapRegisters fun registers => { registers with sp := sp - 2 }

@[inline] def pop (wired : Wired Memory) : UInt16 × Wired Memory :=
  let sp := wired.registers.sp
  let low := wired.readByte sp
  let high := low.2.readByte (sp + 1)
  (Word.ofBytes high.1 low.1,
    high.2.mapRegisters fun registers => { registers with sp := sp + 2 })

end Wired

end Dmg
