import Dmg.Proofs.Timer
import Mathlib.Algebra.Ring.Nat

/-!
# What the timer shows after a while

As long as no register is written, the timer keeps nothing of the way in which time
passes but how much of it has passed.  The divider goes round its whole range.  The
interval counter counts up to the end of its range once, and from then on goes round
between its reload value and that end, however short this way is.  It has asked for an
interrupt exactly if it has come to the end of its range.

The spans may be as many as they like.  They only have to be spans: where there is none,
cycles that make up a count already are not looked at.
-/

namespace Dmg

namespace InterruptControl

theorem request_zero (control : InterruptControl) : control.request 0 = control := by
  unfold request
  rw [UInt8.or_zero]

theorem request_or (control : InterruptControl) (early late : UInt8) :
    control.request (early ||| late) = (control.request early).request late := by
  unfold request
  rw [UInt8.or_assoc]

end InterruptControl

namespace Timer

/-- Let one span after the other pass, and add the requests that arise to those that
wait. -/
def passAll (timer : Timer) (control : InterruptControl) : List Nat -> Timer × InterruptControl
  | [] => (timer, control)
  | cycles :: rest =>
      let stepped := timer.step cycles
      stepped.1.passAll (control.request stepped.2) rest

/-- Spans that follow each other are one span. -/
theorem passAll_cons (timer : Timer) (control : InterruptControl) (first : Nat)
    (rest : List Nat) :
    timer.passAll control (first :: rest) =
      ((timer.step (first :: rest).sum).1, control.request (timer.step (first :: rest).sum).2) := by
  induction rest generalizing timer control first with
  | nil => rw [passAll, passAll, List.sum_singleton]
  | cons second rest inductionHypothesis =>
      calc
        timer.passAll control (first :: second :: rest)
        _ = (timer.step first).1.passAll (control.request (timer.step first).2)
              (second :: rest) := rfl
        _ = (((timer.step first).1.step (second :: rest).sum).1,
              (control.request (timer.step first).2).request
                ((timer.step first).1.step (second :: rest).sum).2) :=
            inductionHypothesis _ _ second
        _ = _ := by
            rw [← InterruptControl.request_or, List.sum_cons (a := first), step_add]

/-! ## Counting up -/

/-- A counter that does not come to the end of its range counts as a byte does. -/
theorem countUp_of_lt (reload : UInt8) {value : UInt8} {count : Nat}
    (room : value.toNat + count < 256) :
    countUp reload count value = (value + UInt8.ofNat count, false) := by
  induction count generalizing value with
  | zero =>
      rw [countUp]
      exact Prod.ext (UInt8.add_zero value).symm rfl
  | succ count inductionHypothesis =>
      have free : value ≠ 0xFF := by
        intro full
        rw [full] at room
        change 255 + (count + 1) < 256 at room
        omega
      have next : (value + 1).toNat = value.toNat + 1 := by
        rw [UInt8.toNat_add]
        change (value.toNat + 1) % 256 = value.toNat + 1
        omega
      rw [countUp, if_neg free, inductionHypothesis (by omega), UInt8.ofNat_add, UInt8.add_assoc,
        UInt8.add_comm 1]
      rfl

/-- The count that finds the counter full puts the reload value in. -/
theorem countUp_of_full (reload : UInt8) {value : UInt8} {count : Nat}
    (full : value.toNat + count = 256) : countUp reload count value = (reload, true) := by
  have bound := value.toNat_lt
  obtain ⟨before, rfl⟩ : ∃ before, count = before + 1 := ⟨count - 1, by omega⟩
  have last : value + UInt8.ofNat before = 0xFF := by
    apply UInt8.toNat.inj
    rw [UInt8.toNat_add, UInt8.toNat_ofNat']
    change (value.toNat + before % 256) % 256 = 255
    omega
  rw [countUp_add, countUp_of_lt reload (show value.toNat + before < 256 by omega), last]
  rfl

/-- From its reload value on the counter goes round.  One time round leads back to this
value, with fewer counts to go. -/
theorem countUp_reload (reload : UInt8) (count : Nat) :
    (countUp reload count reload).1 =
      UInt8.ofNat (reload.toNat + count % (256 - reload.toNat)) := by
  have bound := reload.toNat_lt
  induction count using Nat.strongRecOn with
  | ind count inductionHypothesis =>
      by_cases room : reload.toNat + count < 256
      · have less : count < 256 - reload.toNat := by omega
        rw [countUp_of_lt reload room, Nat.mod_eq_of_lt less, UInt8.ofNat_add, UInt8.ofNat_toNat]
      · obtain ⟨rest, rfl⟩ : ∃ rest, count = 256 - reload.toNat + rest :=
          ⟨count - (256 - reload.toNat), by omega⟩
        have around : reload.toNat + (256 - reload.toNat) = 256 := by omega
        rw [countUp_add, countUp_of_full reload around, Nat.add_mod_left]
        exact inductionHypothesis rest (by omega)

/-- A counter that comes to the end of its range goes on from the reload value. -/
theorem countUp_of_ge (reload : UInt8) {value : UInt8} {count : Nat}
    (ends : 256 - value.toNat <= count) :
    countUp reload count value =
      (UInt8.ofNat
        (reload.toNat + (count - (256 - value.toNat)) % (256 - reload.toNat)), true) := by
  have bound := value.toNat_lt
  obtain ⟨rest, rfl⟩ : ∃ rest, count = 256 - value.toNat + rest :=
    ⟨count - (256 - value.toNat), by omega⟩
  have full : value.toNat + (256 - value.toNat) = 256 := by omega
  rw [countUp_add, countUp_of_full reload full, Nat.add_sub_cancel_left, Bool.true_or]
  exact Prod.ext (countUp_reload reload rest) rfl

/-- Where the counter is after some counts. -/
theorem toNat_countUp (reload value : UInt8) (count : Nat) :
    (countUp reload count value).1.toNat =
      if count <= 255 - value.toNat then value.toNat + count
      else reload.toNat + (count - (256 - value.toNat)) % (256 - reload.toNat) := by
  have valueBound := value.toNat_lt
  have reloadBound := reload.toNat_lt
  split
  · next room =>
    rw [countUp_of_lt reload (by omega), UInt8.toNat_add, UInt8.toNat_ofNat']
    change (value.toNat + count % 256) % 256 = value.toNat + count
    omega
  · next ends =>
    have around : (count - (256 - value.toNat)) % (256 - reload.toNat) < 256 - reload.toNat :=
      Nat.mod_lt _ (by omega)
    rw [countUp_of_ge reload (by omega), UInt8.toNat_ofNat']
    exact Nat.mod_eq_of_lt (by omega)

/-- When the counter has been found full. -/
theorem countUp_full (reload value : UInt8) (count : Nat) :
    (countUp reload count value).2 = decide (256 - value.toNat <= count) := by
  by_cases ends : 256 - value.toNat <= count
  · rw [countUp_of_ge reload ends, decide_eq_true ends]
  · rw [countUp_of_lt reload (by omega), decide_eq_false ends]

/-! ## The timer as a whole -/

/-- No counter carries cycles that make up a count at its rate. -/
def NothingDue (timer : Timer) : Prop :=
  timer.divClock < divPeriod ∧ (timer.isEnabled = true -> timer.timaClock < timer.period)

/-- Where nothing is due, no time is a span like any other. -/
theorem NothingDue.step_zero {timer : Timer} (settled : timer.NothingDue) :
    timer.step 0 = (timer, 0) := by
  rcases settled with ⟨div, tima⟩
  have still : timer.stepDivider 0 = timer := by
    unfold stepDivider
    rw [Nat.add_zero, Nat.div_eq_of_lt div, Nat.mod_eq_of_lt div]
    exact Timer.ext (UInt8.add_zero _) rfl rfl rfl rfl rfl
  cases enabled : timer.isEnabled with
  | false => rw [step_of_disabled enabled, still]
  | true =>
      have less := tima enabled
      rw [step_of_enabled enabled, still, dueCounts, Nat.add_zero, Nat.div_eq_of_lt less,
        Nat.mod_eq_of_lt less]
      rfl

theorem passAll_eq {timer : Timer} {calls : List Nat} (control : InterruptControl)
    (settled : calls = [] -> timer.NothingDue) :
    timer.passAll control calls =
      ((timer.step calls.sum).1, control.request (timer.step calls.sum).2) := by
  cases calls with
  | nil => rw [List.sum_nil, (settled rfl).step_zero, InterruptControl.request_zero, passAll]
  | cons first rest => exact timer.passAll_cons control first rest

theorem request_fullRequest (control : InterruptControl) (full : Bool) :
    control.request (fullRequest full) =
      if full then control.request Interrupt.timer.mask else control := by
  cases full with
  | false => exact control.request_zero
  | true => rfl

theorem toNat_div_stepDivider (timer : Timer) (cycles : Nat) :
    (timer.stepDivider cycles).div.toNat =
      (timer.div.toNat + (timer.divClock + cycles) / 16) % 256 := by
  unfold stepDivider
  rw [UInt8.toNat_add, UInt8.toNat_ofNat']
  exact Nat.add_mod_mod _ _ _

/-- A timer whose interval counter goes up with every cycle and goes round between its
last two values. -/
def hasty : Timer where
  div := 0xFF
  tima := 0xFD
  tma := 0xFE
  tac := 0x05
  divClock := 9
  timaClock := 0

end Timer

end Dmg
