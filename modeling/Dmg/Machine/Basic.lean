import Dmg.Board.Basic
import Dmg.Cpu.Disassembly
import Dmg.Cpu.Step

/-!
# The machine

The machine is a processor on a board, together with what its owner has asked
of it: how long a frame lasts, which colours to use, and where to stop.
Cartridges and start-up images are put in from outside.  An image that is
refused leaves no machine behind but the one there was.
-/

namespace Dmg

/-- What the owner of a machine decides once. -/
@[ext] structure Config where
  /-- The clock cycles of a frame. -/
  cyclesPerFrame : Nat
  shades : Shades
  /-- Whether the bytes sent over the serial link are of interest. -/
  logsSerial : Bool

namespace Config

/-- The clock cycles of a whole picture. -/
def pictureCycles : Nat := 70224

/-- A frame for each picture, in shades of green. -/
def standard : Config := ⟨pictureCycles, .green, false⟩

instance : Inhabited Config := ⟨standard⟩

end Config

/-- The processor on its board, with what its owner has decided.  A frame remembers two
things for the next call: the address that it paused at, and the opcode that froze the
machine. -/
@[ext] structure Machine where
  core : Wired Board
  config : Config
  /-- Addresses at which a frame is interrupted, in rising order. -/
  breakpoints : List UInt16
  /-- The breakpoint that the last frame stopped at.  The next frame passes it. -/
  pausedAt : Option UInt16
  /-- The opcode that could not be decoded, which freezes the machine. -/
  fault : Option DecodeError

namespace Machine

@[inline] def cpu (machine : Machine) : Cpu :=
  machine.core.cpu

@[inline] def board (machine : Machine) : Board :=
  machine.core.memory

@[inline] def mapCpu (machine : Machine) (change : Cpu -> Cpu) : Machine :=
  { machine with core := { machine.core with cpu := change machine.core.cpu } }

@[inline] def mapBoard (machine : Machine) (change : Board -> Board) : Machine :=
  { machine with core := { machine.core with memory := change machine.core.memory } }

/-- The processor at the start of a program: at the start-up image if there is
one, and otherwise where that image would have left it. -/
def startingCpu (board : Board) : Cpu :=
  if board.bootActive then .poweredOn else .afterBoot

/-- A machine with nothing in its slot. -/
def new (config : Config) : Machine where
  core := ⟨.afterBoot, .empty config.shades⟩
  config := config
  breakpoints := []
  pausedAt := none
  fault := none

instance : Inhabited Machine := ⟨new .standard⟩

/-- Turn the power off and on.  Images and breakpoints stay. -/
def reset (machine : Machine) : Machine :=
  let board := machine.board.reset
  let cpu := machine.cpu.reset
  { machine with
    core := ⟨if board.bootActive then cpu.powerOn else cpu, board⟩
    pausedAt := none
    fault := none }

/-- Of the processor a reset keeps nothing. -/
theorem reset_eq (machine : Machine) :
    machine.reset =
      { machine with
        core := ⟨startingCpu machine.board.reset, machine.board.reset⟩
        pausedAt := none
        fault := none } := by
  rw [reset, Cpu.powerOn_eq, Cpu.reset_eq]
  rfl

/-- Put a cartridge in and turn the power off and on. -/
def load (machine : Machine) (image : ByteArray) : Except ImageError (CartridgeInfo × Machine) :=
  match Cartridge.ofImage image with
  | .error refusal => .error refusal
  | .ok cartridge =>
      .ok (cartridge.info,
        (machine.mapBoard fun board => board.insertCartridge cartridge).reset)

/-- Put a start-up image in and turn the power off and on. -/
def loadBoot (machine : Machine) (image : ByteArray) : Except ImageError Machine :=
  match BootImage.ofBytes image with
  | .error refusal => .error refusal
  | .ok boot =>
      .ok (machine.mapBoard fun board => board.insertBoot boot).reset

/-- What there is to say about the cartridge, if there is one. -/
def cartridgeInfo (machine : Machine) : Option CartridgeInfo :=
  if machine.board.cartridge.isLoaded then some machine.board.cartridge.info else none

/-- Whether an opcode has frozen the machine. -/
def isFrozen (machine : Machine) : Bool :=
  machine.fault.isSome

/-- Go on after a fault, a stop or a halt. -/
def resume (machine : Machine) : Machine :=
  { machine.mapCpu Cpu.wake with fault := none }

def setButton (machine : Machine) (button : Button) (held : Bool) : Machine :=
  machine.mapBoard fun board => board.setButton button held

def isHeld (machine : Machine) (button : Button) : Bool :=
  machine.board.joypad.isHeld button

/-- Put an address into a rising list that does not have it. -/
def insertAddress (address : UInt16) : List UInt16 -> List UInt16
  | [] => [address]
  | first :: rest =>
      if address < first then address :: first :: rest
      else first :: insertAddress address rest

/-- Add a breakpoint.  The answer also says whether it is new. -/
def addBreakpoint (machine : Machine) (address : UInt16) : Bool × Machine :=
  if machine.breakpoints.contains address then (false, machine)
  else (true, { machine with breakpoints := insertAddress address machine.breakpoints })

/-- Remove a breakpoint.  The answer also says whether there was one. -/
def removeBreakpoint (machine : Machine) (address : UInt16) : Bool × Machine :=
  (machine.breakpoints.contains address,
    { machine with breakpoints := machine.breakpoints.erase address })

/-- The bytes sent over the serial link since the power came on. -/
def serialOutput (machine : Machine) : Array UInt8 :=
  machine.board.serial.sent

/-- The byte that the processor would read at an address. -/
def peek (machine : Machine) (address : UInt16) : UInt8 :=
  machine.board.read address

/-- The bytes at successive addresses, the first address after the last. -/
def peekRange (machine : Machine) (address : UInt16) : Nat -> List UInt8
  | 0 => []
  | count + 1 => machine.peek address :: machine.peekRange (address + 1) count

def disassemble (machine : Machine) (address : UInt16) : Disassembly :=
  Disassembly.lineAt machine.peek address

end Machine

end Dmg
