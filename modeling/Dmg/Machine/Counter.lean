import Dmg.Machine.Run

/-!
# The counter of a frame

A machine counts the clock cycles of a frame in a word of 32 bits, and the word
starts over when it is full.  A frame that has not come to its end by then begins
anew, and it may never come to its end.  So whoever wants its outcome has to say for
how many rounds to wait, and gets none if the frame is not at its end by then.

A processor that waits for a request changes nothing until there is one, so a long
wait is not gone through cycle by cycle.
-/

namespace Dmg

namespace Wired

/-- Whether a request has been made that is permitted. -/
@[inline] def isAsked (wired : Wired Board) : Bool :=
  let interrupts := wired.memory.interrupts
  interrupts.permissions &&& interrupts.readRequests &&& Interrupt.allMask != 0

/-- Let some machine cycles pass at once while the processor waits. -/
@[inline] def rest (wired : Wired Board) (cycles : Nat) : Wired Board :=
  wired.idle.advance ⟨4 * cycles⟩

end Wired

namespace Machine

/-- Whether a machine waits for a request with its display off, so that there is
nothing to draw meanwhile. -/
@[inline] def isResting (machine : Machine) : Bool :=
  machine.fault.isNone && machine.cpu.halted && !machine.cpu.stopped &&
    !machine.board.video.control.isOn

/-- The machine behind a wait of some machine cycles, if it is to wait for as long
as that. -/
def rested? (machine : Machine) (cycles : Nat) : Option Machine :=
  let core := machine.core.rest cycles
  if core.isAsked then none else some { machine with core := core, pausedAt := none }

/-- The machine cycles that may pass at once. -/
def restLengths : List Nat := [2048, 128, 8]

/-- A wait that takes fewer clock cycles than are left, and the machine behind it. -/
def findRest? (machine : Machine) (left : Nat) : Option (Nat × Machine) :=
  if machine.isResting then
    restLengths.findSome? fun cycles =>
      if 4 * cycles < left then (machine.rested? cycles).map fun rested => (cycles, rested)
      else none
  else none

/-- Run until a number of clock cycles is spent, of which some are spent already.
They are counted in a word.  There is no outcome as long as the given rounds do not
lead to the end. -/
def countUntil (budget : UInt32) (rounds : Nat) (machine : Machine) (elapsed : UInt32) :
    Option (Except DecodeError FrameOutcome × Machine) :=
  match rounds with
  | 0 => none
  | rounds + 1 =>
      match machine.findRest? (budget.toNat - elapsed.toNat) with
      | some (cycles, rested) =>
          countUntil budget rounds rested (elapsed + UInt32.ofNat (4 * cycles))
      | none =>
          if elapsed < budget then
            if machine.cpu.stopped then some (.ok .stopped, machine)
            else if machine.isAtBreakpoint then
              some (.ok (.breakpoint machine.cpu.registers.pc),
                { machine with pausedAt := some machine.cpu.registers.pc })
            else
              match { machine with pausedAt := none }.step with
              | (.error failure, machine) => some (.error failure, machine)
              | (.ok timing, machine) =>
                  countUntil budget rounds machine (elapsed + UInt32.ofNat timing.clocks)
          else some (.ok .completed, machine)

/-- Run for a frame and count its clock cycles in a word. -/
def countFrame (machine : Machine) (rounds : Nat) :
    Option (Except DecodeError FrameOutcome × Machine) :=
  if machine.isFrozen then some (.ok .frozen, machine)
  else countUntil (UInt32.ofNat machine.config.cyclesPerFrame) rounds machine 0

end Machine

end Dmg
