import Dmg.Cpu.Decode
import Dmg.Cpu.Execute
import Dmg.Interrupt
import Dmg.Text.Hex

/-!
# Steps of the processor

A step is one instruction, or one idle machine cycle of a processor that waits.
An opcode without a meaning is not executed: the step fails, and the processor
is as it was before it.

EI sets a latch, and interrupts are on behind the instruction that follows.  DI
clears the latch, so it may still prevent this.

A dispatch is the call of a handler between two instructions.
-/

namespace Dmg

/-- An opcode byte without a meaning, and where it is. -/
structure DecodeError where
  code : UInt8
  address : UInt16
  deriving DecidableEq, Repr

namespace DecodeError

def message (failure : DecodeError) : String :=
  "unknown opcode 0x" ++ Text.hexByte failure.code ++ " at PC=0x" ++
    Text.hexWord failure.address

end DecodeError

namespace Cpu

/-- The end of an instruction.  If the latch of EI was set before it, interrupts are on
behind it, unless it is DI. -/
@[inline] def settle (cpu : Cpu) (armed : Bool) (operation : Operation) (timing : Timing) : Cpu :=
  { cpu with
    ime := cpu.ime || (armed && operation != .disableInterrupts)
    timing := timing }

end Cpu

namespace Wired

variable {Memory : Type} [Bus Memory]

def idleTiming : Timing := ⟨4⟩

def dispatchTiming : Timing := ⟨16⟩

/-- Execute a decoded operation as a whole instruction. -/
@[specialize] def perform (wired : Wired Memory) (operation : Operation) : Wired Memory :=
  let armed := wired.cpu.enablePending
  let timing : Timing := ⟨operation.cost wired.registers⟩
  let unarmed := { wired with cpu := { wired.cpu with enablePending := false } }
  let executed := unarmed.execute operation
  { executed with cpu := executed.cpu.settle armed operation timing }

@[inline] def idle (wired : Wired Memory) : Wired Memory :=
  { wired with cpu := { wired.cpu with timing := idleTiming } }

/-- The time of a step that succeeded, which the processor remembers. -/
@[inline] def succeed (wired : Wired Memory) : Except DecodeError Timing × Wired Memory :=
  (.ok wired.cpu.timing, wired)

@[specialize] def step (wired : Wired Memory) : Except DecodeError Timing × Wired Memory :=
  if wired.cpu.isIdle then wired.idle.succeed
  else
    let address := wired.registers.pc
    let fetched := wired.fetchByte
    match Opcode.decode fetched.1 with
    | .operation operation => (fetched.2.perform operation).succeed
    | .extended =>
        let selector := fetched.2.fetchByte
        (selector.2.perform (.decodeExtended selector.1)).succeed
    | .undefined => (.error ⟨fetched.1, address⟩, fetched.2.jump address)

/-- Call the handler of a source: its request is taken back, interrupts are off
and the processor no longer waits for one. -/
@[specialize] def dispatch (wired : Wired Memory) (source : Interrupt) (vector : UInt16) :
    Wired Memory :=
  let requests := wired.readByte Interrupt.requestAddress
  let taken := requests.2.writeByte Interrupt.requestAddress (requests.1 &&& ~~~source.mask)
  let ready := { taken with
    cpu := { taken.cpu with ime := false, halted := false, timing := dispatchTiming } }
  ready.call vector

/-- Look for permitted requests between two instructions.  Any of them ends a
halt.  If interrupts are on, the first one with a handler is dispatched, and the
answer is the time that this takes. -/
@[specialize] def serviceInterrupts (wired : Wired Memory) :
    Option Timing × Wired Memory :=
  let permissions := wired.readByte Interrupt.permissionAddress
  let requests := permissions.2.readByte Interrupt.requestAddress
  let pending := permissions.1 &&& requests.1 &&& Interrupt.allMask
  let checked := requests.2
  if pending = 0 then (none, checked)
  else
    match checked.cpu.ime, Interrupt.first? pending with
    | true, some (source, vector) => (some dispatchTiming, checked.dispatch source vector)
    | _, _ => (none, { checked with cpu := { checked.cpu with halted := false } })

end Wired

end Dmg
