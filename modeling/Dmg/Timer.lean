import Dmg.Interrupt

/-!
# The timer

Two counters run on machine cycles.  The divider counts every sixteen of them
and starts over by itself.  The interval counter counts at one of four rates
while it is enabled; a count that finds it full puts its reload value in and
asks for an interrupt.

Each counter keeps the cycles that have not made up a count yet.  Changing the
rate leaves those of the interval counter as they are.
-/

namespace Dmg

inductive TimerRegister where
  | div
  | tima
  | tma
  | tac
  deriving DecidableEq, Repr

/-- The registers of the timer, and for each counter the cycles that have not made up a
count yet. -/
@[ext] structure Timer where
  /-- The divider. -/
  div : UInt8
  /-- The interval counter. -/
  tima : UInt8
  /-- What the interval counter starts over from. -/
  tma : UInt8
  /-- The rate, and whether the interval counter is enabled. -/
  tac : UInt8
  /-- Machine cycles towards the next count of the divider. -/
  divClock : Nat
  /-- Machine cycles towards the next count of the interval counter. -/
  timaClock : Nat
  deriving DecidableEq, Repr

namespace Timer

/-- Machine cycles for each count of the divider. -/
def divPeriod : Nat := 16

/-- Both counters at zero, the interval counter disabled. -/
def initial : Timer := ⟨0, 0, 0, 0, 0, 0⟩

instance : Inhabited Timer := ⟨initial⟩

/-- Whether the interval counter runs. -/
@[inline] def isEnabled (timer : Timer) : Bool :=
  timer.tac &&& 0x04 != 0

/-- Machine cycles for each count of the interval counter. -/
def period (timer : Timer) : Nat :=
  if timer.tac &&& 0x03 = 0 then 64
  else if timer.tac &&& 0x03 = 1 then 1
  else if timer.tac &&& 0x03 = 2 then 4
  else 16

/-- Count up a number of times from a value, and say whether the counter was
found full on the way. -/
def countUp (reload : UInt8) : Nat -> UInt8 -> UInt8 × Bool
  | 0, value => (value, false)
  | count + 1, value =>
      if value = 0xFF then ((countUp reload count reload).1, true)
      else countUp reload count (value + 1)

/-- How many counts the interval counter makes over some machine cycles. -/
@[inline] def dueCounts (timer : Timer) (cycles : Nat) : Nat :=
  (timer.timaClock + cycles) / timer.period

/-- Let machine cycles pass for the divider. -/
@[inline] def stepDivider (timer : Timer) (cycles : Nat) : Timer :=
  { timer with
    div := timer.div + UInt8.ofNat ((timer.divClock + cycles) / divPeriod)
    divClock := (timer.divClock + cycles) % divPeriod }

/-- Let machine cycles pass.  The answer also holds the requests that arose. -/
def step (timer : Timer) (cycles : Nat) : Timer × UInt8 :=
  let timer := timer.stepDivider cycles
  if timer.isEnabled then
    let counted := countUp timer.tma (timer.dueCounts cycles) timer.tima
    ({ timer with
        tima := counted.1
        timaClock := (timer.timaClock + cycles) % timer.period },
      if counted.2 then Interrupt.timer.mask else 0)
  else (timer, 0)

def read (timer : Timer) : TimerRegister -> UInt8
  | .div => timer.div
  | .tima => timer.tima
  | .tma => timer.tma
  | .tac => 0xF8 ||| timer.tac

/-- Store into a register.  Any byte clears the divider, and enabling the
interval counter begins a full period. -/
def write (timer : Timer) (register : TimerRegister) (byte : UInt8) : Timer :=
  match register with
  | .div => { timer with div := 0, divClock := 0 }
  | .tima => { timer with tima := byte }
  | .tma => { timer with tma := byte }
  | .tac =>
      let changed := { timer with tac := byte &&& 0x07 }
      if !timer.isEnabled && changed.isEnabled then { changed with timaClock := 0 }
      else changed

end Timer

end Dmg
