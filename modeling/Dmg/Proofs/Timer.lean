import Dmg.Timer

/-!
# Counting in two spans

Each counter of the timer divides the cycles that pass by its period and keeps
the remainder.  A remainder that is carried over makes up for where a span is
cut, so two spans count as often as one span of their lengths together, and
find the interval counter full whenever that one does.
-/

namespace Dmg

namespace Timer

/-- What is left of a first span counts towards the second one. -/
theorem div_add_cut {period : Nat} (positive : 0 < period) (clock early late : Nat) :
    (clock + (early + late)) / period =
      (clock + early) / period + ((clock + early) % period + late) / period := by
  have whole := Nat.div_add_mod (clock + early) period
  have cut : clock + (early + late) =
      period * ((clock + early) / period) + ((clock + early) % period + late) := by
    omega
  rw [cut, Nat.mul_add_div positive]

theorem mod_add_cut (period clock early late : Nat) :
    (clock + (early + late)) % period = ((clock + early) % period + late) % period := by
  rw [← Nat.add_assoc, Nat.mod_add_mod]

theorem period_pos (timer : Timer) : 0 < timer.period := by
  rw [period]
  split
  · decide
  · split
    · decide
    · split <;> decide

theorem countUp_add (reload : UInt8) (early late : Nat) (value : UInt8) :
    countUp reload (early + late) value =
      ((countUp reload late (countUp reload early value).1).1,
        (countUp reload early value).2 ||
          (countUp reload late (countUp reload early value).1).2) := by
  induction early generalizing value with
  | zero =>
      rw [Nat.zero_add, countUp, Bool.false_or]
  | succ early inductionHypothesis =>
      rw [Nat.succ_add, countUp, countUp]
      by_cases full : value = 0xFF
      · rw [if_pos full, if_pos full, inductionHypothesis, Bool.true_or]
      · rw [if_neg full, if_neg full, inductionHypothesis]

/-- The request of a timer whose interval counter was found full or not. -/
def fullRequest (full : Bool) : UInt8 :=
  if full then Interrupt.timer.mask else 0

theorem fullRequest_or (early late : Bool) :
    fullRequest (early || late) = fullRequest early ||| fullRequest late := by
  cases early <;> cases late <;> rfl

/-- The timer when cycles have passed for both counters. -/
theorem step_of_enabled {timer : Timer} (enabled : timer.isEnabled = true) (cycles : Nat) :
    timer.step cycles =
      ({ timer.stepDivider cycles with
          tima := (countUp timer.tma (timer.dueCounts cycles) timer.tima).1
          timaClock := (timer.timaClock + cycles) % timer.period },
        fullRequest (countUp timer.tma (timer.dueCounts cycles) timer.tima).2) :=
  if_pos enabled

theorem step_of_disabled {timer : Timer} (disabled : timer.isEnabled = false) (cycles : Nat) :
    timer.step cycles = (timer.stepDivider cycles, 0) :=
  if_neg (Bool.eq_false_iff.mp disabled)

theorem stepDivider_add (timer : Timer) (early late : Nat) :
    timer.stepDivider (early + late) = (timer.stepDivider early).stepDivider late := by
  have sixteen : 0 < divPeriod := by decide
  simp only [stepDivider, div_add_cut sixteen, mod_add_cut, UInt8.ofNat_add, UInt8.add_assoc]

theorem dueCounts_add {timer later : Timer} {early : Nat} (rate : later.period = timer.period)
    (carried : later.timaClock = (timer.timaClock + early) % timer.period) (late : Nat) :
    timer.dueCounts (early + late) = timer.dueCounts early + later.dueCounts late := by
  rw [dueCounts, dueCounts, dueCounts, rate, carried, div_add_cut timer.period_pos]

theorem step_add_of_enabled {timer : Timer} (enabled : timer.isEnabled = true)
    (early late : Nat) :
    timer.step (early + late) =
      (((timer.step early).1.step late).1,
        (timer.step early).2 ||| ((timer.step early).1.step late).2) := by
  have first := step_of_enabled enabled early
  have still : (timer.step early).1.isEnabled = true := by
    rw [first]
    exact enabled
  have counts : timer.dueCounts (early + late) =
      timer.dueCounts early + (timer.step early).1.dueCounts late := by
    apply dueCounts_add
    · rw [first]
      rfl
    · rw [first]
  rw [step_of_enabled still, step_of_enabled enabled (early + late), counts, countUp_add,
    fullRequest_or, mod_add_cut, stepDivider_add, first]
  rfl

/-- Two spans are one span of their lengths together. -/
theorem step_add (timer : Timer) (early late : Nat) :
    timer.step (early + late) =
      (((timer.step early).1.step late).1,
        (timer.step early).2 ||| ((timer.step early).1.step late).2) := by
  cases enabled : timer.isEnabled with
  | false =>
      have still : (timer.stepDivider early).isEnabled = false := enabled
      rw [step_of_disabled enabled, step_of_disabled enabled, step_of_disabled still,
        stepDivider_add, UInt8.or_self]
  | true => exact step_add_of_enabled enabled early late

end Timer

end Dmg
