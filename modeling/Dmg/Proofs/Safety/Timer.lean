import Dmg.Proofs.Board.Reached
import Dmg.Proofs.Safety.Checked
import Dmg.Proofs.Timer.ClosedForm

/-!
# The checked timer

Neither counter of the timer divides: each takes one period after the other off the
cycles that have come together.  These have to fit a double word, and the interval
counter has to fit a byte when it goes up.  It is looked at before that, so it
never goes up from the end of its range.

Only the sums can fail.  Where they fit, in whatever state the timer is, the loops come
to what a division gives at once.
-/

namespace Dmg

namespace Timer

/-- A count of the interval counter, with a note of whether it has been found
full. -/
def tick (reload : UInt8) (counted : UInt8 × Bool) : UInt8 × Bool :=
  if counted.1 = 0xFF then (reload, true) else (counted.1 + 1, counted.2)

/-- Count on by one, unless the counter is full. -/
def tick? (reload : UInt8) (counted : UInt8 × Bool) : Option (UInt8 × Bool) :=
  if counted.1 = 0xFF then some (reload, true)
  else do
    let next <- Checked.add 8 counted.1.toNat 1
    some (UInt8.ofNat next, counted.2)

def step? (timer : Timer) (cycles : Nat) : Option (Timer × UInt8) := do
  let divClock <- Checked.add 32 timer.divClock cycles
  let divided <- Checked.drain? divPeriod (by decide) (fun div => some (div + 1)) divClock timer.div
  let timer := { timer with div := divided.2, divClock := divided.1 }
  if timer.isEnabled then
    let timaClock <- Checked.add 32 timer.timaClock cycles
    let counted <-
      Checked.drain? timer.period timer.period_pos (tick? timer.tma) timaClock (timer.tima, false)
    some ({ timer with tima := counted.2.1, timaClock := counted.1 }, fullRequest counted.2.2)
  else some (timer, 0)

theorem tick?_eq (reload : UInt8) (counted : UInt8 × Bool) :
    tick? reload counted = some (tick reload counted) := by
  rw [tick?, tick]
  split
  · rfl
  · next free =>
    have bound := counted.1.toNat_lt
    have other : counted.1.toNat ≠ 255 := fun full => free (UInt8.toNat.inj full)
    rw [Checked.add_eq (show counted.1.toNat + 1 < 2 ^ 8 by omega)]
    change some (UInt8.ofNat (counted.1.toNat + 1), counted.2) = _
    rw [UInt8.ofNat_add, UInt8.ofNat_toNat]
    rfl

theorem iterate_succ_div (count : Nat) (div : UInt8) :
    (fun div : UInt8 => div + 1)^[count] div = div + UInt8.ofNat count := by
  induction count generalizing div with
  | zero => exact (UInt8.add_zero div).symm
  | succ count inductionHypothesis =>
      rw [Function.iterate_succ_apply, inductionHypothesis, UInt8.ofNat_add, UInt8.add_assoc,
        UInt8.add_comm 1]
      rfl

theorem iterate_tick (reload : UInt8) (count : Nat) (value : UInt8) (full : Bool) :
    (tick reload)^[count] (value, full) =
      ((countUp reload count value).1, full || (countUp reload count value).2) := by
  induction count generalizing value full with
  | zero =>
      rw [countUp, Bool.or_false]
      rfl
  | succ count inductionHypothesis =>
      rw [Function.iterate_succ_apply, countUp, tick]
      split
      · rw [inductionHypothesis, Bool.true_or, Bool.or_true]
      · rw [inductionHypothesis]

/-- The cycles that come together for each counter fit a double word. -/
def HasRoom (timer : Timer) (cycles : Nat) : Prop :=
  timer.divClock + cycles < 2 ^ 32 ∧
    (timer.isEnabled = true -> timer.timaClock + cycles < 2 ^ 32)

/-- Where there is room, the periods that are taken off one after the other are as many
as a division finds. -/
theorem step?_eq {timer : Timer} {cycles : Nat} (room : timer.HasRoom cycles) :
    timer.step? cycles = some (timer.step cycles) := by
  rcases room with ⟨div, tima⟩
  rw [step?, Checked.add_eq div]
  simp only [Option.bind_eq_bind, Option.bind_some,
    Checked.drain?_eq _ (fun div : UInt8 => (rfl : some (div + 1) = some (div + 1))),
    iterate_succ_div]
  change (if timer.isEnabled then _ else _) = _
  cases enabled : timer.isEnabled with
  | true =>
      rw [step_of_enabled enabled]
      simp only [if_true, Checked.add_eq (tima enabled), Option.bind_some,
        Checked.drain?_eq _ (tick?_eq timer.tma), iterate_tick, Bool.false_or]
      rfl
  | false =>
      rw [step_of_disabled enabled]
      rfl

/-- Without room there is no answer. -/
theorem hasRoom_of_step? {timer : Timer} {cycles : Nat} {answer : Timer × UInt8}
    (answered : timer.step? cycles = some answer) : timer.HasRoom cycles := by
  rcases Option.bind_eq_some_iff.mp answered with ⟨divClock, div, answered⟩
  rcases Option.bind_eq_some_iff.mp answered with ⟨divided, -, answered⟩
  refine ⟨Checked.lt_of_add_eq_some div, fun enabled => ?_⟩
  change (if timer.isEnabled then _ else _) = _ at answered
  rw [if_pos enabled] at answered
  rcases Option.bind_eq_some_iff.mp answered with ⟨timaClock, tima, -⟩
  exact Checked.lt_of_add_eq_some tima

/-- The cycles that no counter has used up are few, so there is room for as many as
half a double word has. -/
theorem Carries.hasRoom {timer : Timer} (carries : timer.Carries) {cycles : Nat}
    (few : cycles < 2 ^ 31) : timer.HasRoom cycles := by
  have div : timer.divClock < 16 := carries.div
  have tima := carries.tima
  exact ⟨by omega, fun _ => by omega⟩

def passAll? (timer : Timer) (control : InterruptControl) :
    List Nat -> Option (Timer × InterruptControl)
  | [] => some (timer, control)
  | cycles :: rest => do
      let stepped <- timer.step? cycles
      stepped.1.passAll? (control.request stepped.2) rest

/-- As long as no sum is too large for its word, spans leave what their total decides. -/
theorem passAll_of_passAll? {timer : Timer} {control : InterruptControl} {calls : List Nat}
    {answer : Timer × InterruptControl} (answered : timer.passAll? control calls = some answer) :
    timer.passAll control calls = answer := by
  induction calls generalizing timer control with
  | nil => exact Option.some.inj answered
  | cons cycles rest inductionHypothesis =>
      rcases Option.bind_eq_some_iff.mp answered with ⟨stepped, first, later⟩
      rw [step?_eq (hasRoom_of_step? first)] at first
      rw [passAll, Option.some.inj first]
      exact inductionHypothesis later

/-- The cycles that are carried over are no more than have come together. -/
theorem clocks_step_le (timer : Timer) (cycles : Nat) :
    (timer.step cycles).1.divClock <= timer.divClock + cycles ∧
      (timer.step cycles).1.timaClock <= timer.timaClock + cycles := by
  cases enabled : timer.isEnabled with
  | true =>
      rw [step_of_enabled enabled]
      exact ⟨Nat.mod_le _ _, Nat.mod_le _ _⟩
  | false =>
      rw [step_of_disabled enabled]
      exact ⟨Nat.mod_le _ _, Nat.le_add_right _ _⟩

/-- There is room for all spans if there is room for one as long as all of them. -/
theorem passAll?_eq {timer : Timer} {calls : List Nat} (control : InterruptControl)
    (div : timer.divClock + calls.sum < 2 ^ 32) (tima : timer.timaClock + calls.sum < 2 ^ 32) :
    timer.passAll? control calls = some (timer.passAll control calls) := by
  induction calls generalizing timer control with
  | nil => rfl
  | cons cycles rest inductionHypothesis =>
      rw [List.sum_cons] at div tima
      have room : timer.HasRoom cycles := ⟨by omega, fun _ => by omega⟩
      rcases timer.clocks_step_le cycles with ⟨divLess, timaLess⟩
      rw [passAll?, step?_eq room, passAll]
      exact inductionHypothesis _ (by omega) (by omega)

end Timer

end Dmg
