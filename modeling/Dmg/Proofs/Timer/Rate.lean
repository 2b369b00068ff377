import Dmg.Proofs.Board.Reached
import Mathlib.Data.List.Induction

/-!
# Counting after a change of rate

The interval counter keeps the cycles that have not made up a count yet.  Time leaves it
fewer of them than a period has, and enabling it leaves it none.  A write that selects
another rate while the counter runs leaves it those it has, and at a faster rate they can
be more than a period, up to all but one of the sixty-four of the slowest rate.  Whatever
they make up is then counted with the next span, however short that is, and the counter
comes to its end as much earlier.

The main result says of every history of a timer whether this is about to happen.
-/

namespace Dmg

namespace Timer

/-- What happens to a timer. -/
inductive Event where
  | step (cycles : Nat)
  | write (register : TimerRegister) (byte : UInt8)

def act (timer : Timer) : Event -> Timer
  | .step cycles => (timer.step cycles).1
  | .write register byte => timer.write register byte

/-- The timer that a history of events leads to. -/
def afterEvents (events : List Event) : Timer :=
  events.foldl act initial

theorem afterEvents_append (early late : List Event) :
    afterEvents (early ++ late) = late.foldl act (afterEvents early) :=
  List.foldl_append

theorem afterEvents_concat (events : List Event) (event : Event) :
    afterEvents (events ++ [event]) = (afterEvents events).act event :=
  afterEvents_append events [event]

theorem carries_afterEvents (events : List Event) : (afterEvents events).Carries := by
  induction events using List.reverseRecOn with
  | nil => exact carries_initial
  | append_singleton events event inductionHypothesis =>
      rw [afterEvents_concat]
      cases event with
      | step cycles => exact inductionHypothesis.step cycles
      | write register byte => exact inductionHypothesis.write register byte

/-- Whether an event is a write behind which a counter that ran before is still
running. -/
def Event.keepsRunning : Event -> Bool
  | .step _ => false
  | .write .tac byte => byte &&& 0x04 != 0
  | .write _ _ => true

/-- The counter has been running through some last writes, and the rate that they have
left has a period that is no longer than the cycles which the counter carried, too few
for a count, when they began. -/
def Outpaced (events : List Event) : Prop :=
  ∃ early late, events = early ++ late ∧
    (∀ event ∈ late, event.keepsRunning = true) ∧
    (afterEvents early).isEnabled = true ∧
    (afterEvents early).timaClock < (afterEvents early).period ∧
    (afterEvents events).period <= (afterEvents early).timaClock

/-! ## What an event does to the cycles that are carried -/

theorem timaClock_step_lt {timer : Timer} (running : timer.isEnabled = true) (cycles : Nat) :
    (timer.step cycles).1.timaClock < (timer.step cycles).1.period := by
  rw [step_of_enabled running]
  exact Nat.mod_lt _ timer.period_pos

theorem isEnabled_step (timer : Timer) (cycles : Nat) :
    (timer.step cycles).1.isEnabled = timer.isEnabled := by
  cases running : timer.isEnabled with
  | false =>
      rw [step_of_disabled running]
      exact running
  | true =>
      rw [step_of_enabled running]
      exact running

/-- Where the counter runs, no write but one that pauses it changes what it carries. -/
theorem act_of_keepsRunning {timer : Timer} (running : timer.isEnabled = true)
    {event : Event} (keeps : event.keepsRunning = true) :
    (timer.act event).isEnabled = true ∧ (timer.act event).timaClock = timer.timaClock := by
  cases event with
  | step cycles => cases keeps
  | write register byte =>
      cases register with
      | div => exact ⟨running, rfl⟩
      | tima => exact ⟨running, rfl⟩
      | tma => exact ⟨running, rfl⟩
      | tac =>
          have still : (byte &&& 0x07 &&& 0x04 != 0) = true := by
            rw [UInt8.and_assoc]
            exact keeps
          rw [act, write, running, Bool.not_true, Bool.false_and]
          exact ⟨still, rfl⟩

theorem foldl_act_of_keepsRunning {timer : Timer} (running : timer.isEnabled = true)
    {events : List Event} (keeps : ∀ event ∈ events, event.keepsRunning = true) :
    (events.foldl act timer).timaClock = timer.timaClock := by
  induction events generalizing timer with
  | nil => rfl
  | cons event events inductionHypothesis =>
      rcases List.forall_mem_cons.mp keeps with ⟨first, others⟩
      rcases act_of_keepsRunning running first with ⟨still, same⟩
      exact (inductionHypothesis still others).trans same

/-- Through writes that do not pause it a running counter carries what it did. -/
theorem timaClock_append {early late : List Event}
    (running : (afterEvents early).isEnabled = true)
    (keeps : ∀ event ∈ late, event.keepsRunning = true) :
    (afterEvents (early ++ late)).timaClock = (afterEvents early).timaClock := by
  rw [afterEvents_append]
  exact foldl_act_of_keepsRunning running keeps

/-- A counter that starts to run carries nothing. -/
theorem timaClock_of_starts {timer : Timer} (paused : timer.isEnabled = false) {event : Event}
    (starts : (timer.act event).isEnabled = true) : (timer.act event).timaClock = 0 := by
  cases event with
  | step cycles =>
      rw [act, isEnabled_step, paused] at starts
      cases starts
  | write register byte =>
      cases register with
      | div | tima | tma =>
          have same : timer.isEnabled = true := starts
          rw [paused] at same
          cases same
      | tac =>
          have enables : (!timer.isEnabled && { timer with tac := byte &&& 0x07 }.isEnabled) =
              true := by
            rw [act, write] at starts
            rw [paused, Bool.not_false, Bool.true_and]
            split at starts
            · exact starts
            · exact starts
          rw [act, write]
          exact congrArg timaClock (if_pos enables)

/-- An event leaves a running counter with as much as a period only if it is a write that
finds the counter running. -/
theorem keepsRunning_of_period_le {timer : Timer} {event : Event}
    (running : (timer.act event).isEnabled = true)
    (due : (timer.act event).period <= (timer.act event).timaClock) :
    timer.isEnabled = true ∧ event.keepsRunning = true := by
  cases ran : timer.isEnabled with
  | false =>
      have nothing := timaClock_of_starts ran running
      have positive := (timer.act event).period_pos
      omega
  | true =>
      refine ⟨rfl, ?_⟩
      cases event with
      | step cycles => exact absurd due (Nat.not_le.mpr (timaClock_step_lt ran cycles))
      | write register byte =>
          cases register with
          | div | tima | tma => rfl
          | tac =>
              rw [act, write, ran, Bool.not_true, Bool.false_and] at running
              have still : (byte &&& 0x07 &&& 0x04 != 0) = true := running
              rw [UInt8.and_assoc] at still
              exact still

/-- A counter that runs and carries as much as a period has been outpaced: only writes
lie between the time when it carried less and now. -/
theorem outpaced_of_period_le {events : List Event}
    (running : (afterEvents events).isEnabled = true)
    (due : (afterEvents events).period <= (afterEvents events).timaClock) : Outpaced events := by
  induction events using List.reverseRecOn with
  | nil => cases running
  | append_singleton events event inductionHypothesis =>
      rw [afterEvents_concat] at running due
      rcases keepsRunning_of_period_le running due with ⟨ran, keeps⟩
      have carried := (act_of_keepsRunning ran keeps).2
      by_cases settled : (afterEvents events).timaClock < (afterEvents events).period
      · refine ⟨events, [event], rfl, List.forall_mem_singleton.mpr keeps, ran, settled, ?_⟩
        rw [afterEvents_concat, ← carried]
        exact due
      · rcases inductionHypothesis ran (Nat.not_lt.mp settled) with
          ⟨early, late, split, quiet, first, fewer, -⟩
        have same : (afterEvents events).timaClock = (afterEvents early).timaClock := by
          rw [split]
          exact timaClock_append first quiet
        refine ⟨early, late ++ [event], ?_, ?_, first, fewer, ?_⟩
        · rw [split, List.append_assoc]
        · exact List.forall_mem_append.mpr ⟨quiet, List.forall_mem_singleton.mpr keeps⟩
        · rw [afterEvents_concat, ← same, ← carried]
          exact due

theorem Outpaced.period_le {events : List Event} (outpaced : Outpaced events) :
    (afterEvents events).period <= (afterEvents events).timaClock := by
  rcases outpaced with ⟨early, late, rfl, quiet, first, -, faster⟩
  rw [timaClock_append first quiet]
  exact faster

/-! ## How often the counter counts -/

theorem dueCounts_le (timer : Timer) {carried : Nat} (few : timer.timaClock <= carried)
    (cycles : Nat) : timer.dueCounts cycles <= (carried + cycles) / timer.period := by
  unfold dueCounts
  apply Nat.div_le_div_right
  omega

/-- Fewer cycles than a period make up at most one count more. -/
theorem dueCounts_le_of_lt {timer : Timer} (settled : timer.timaClock < timer.period)
    (cycles : Nat) : timer.dueCounts cycles <= cycles / timer.period + 1 := by
  calc
    timer.dueCounts cycles
    _ <= (timer.period + cycles) / timer.period := timer.dueCounts_le (Nat.le_of_lt settled) cycles
    _ = cycles / timer.period + 1 := Nat.add_div_left cycles timer.period_pos

/-- A counter that runs carries less than a period, and so counts at most once more than
a span has periods, exactly if it has not been outpaced.  If it has, it counts what it
carries all at once, and it never carries as much as a period of the slowest rate; a
single span, however short, makes good what the writes have done. -/
theorem timaClock_lt_period_iff {events : List Event}
    (running : (afterEvents events).isEnabled = true) :
    let timer := afterEvents events
    (timer.timaClock < timer.period ↔ ¬ Outpaced events) ∧
      (¬ Outpaced events -> ∀ cycles, timer.dueCounts cycles <= cycles / timer.period + 1) ∧
      ∀ cycles, timer.dueCounts cycles <= (63 + cycles) / timer.period ∧
        ¬ Outpaced (events ++ [.step cycles]) := by
  intro timer
  have settled : timer.timaClock < timer.period ↔ ¬ Outpaced events := by
    constructor
    · intro less outpaced
      exact absurd outpaced.period_le (Nat.not_le.mpr less)
    · intro keepsUp
      apply Nat.not_le.mp
      intro due
      exact keepsUp (outpaced_of_period_le running due)
  refine ⟨settled, fun keepsUp cycles => dueCounts_le_of_lt (settled.mpr keepsUp) cycles, ?_⟩
  intro cycles
  constructor
  · exact timer.dueCounts_le (Nat.le_of_lt_succ (carries_afterEvents events).tima) cycles
  · intro outpaced
    have due := outpaced.period_le
    rw [afterEvents_concat] at due
    exact absurd due (Nat.not_le.mpr (timaClock_step_lt running cycles))

/-- The slowest rate is given up for one four times as fast before a quarter of its
period is over. -/
def changedInTime : List Event :=
  [.write .tac 0x04, .step 79, .write .tma 0x80, .write .tac 0x07]

theorem changedInTime_keeps_up :
    (afterEvents changedInTime).isEnabled = true ∧ ¬ Outpaced changedInTime ∧
      (afterEvents changedInTime).timaClock = 15 ∧
      (afterEvents changedInTime).dueCounts 17 <= 17 / 16 + 1 := by
  have running : (afterEvents changedInTime).isEnabled = true := by
    decide
  rcases timaClock_lt_period_iff running with ⟨settled, counts, -⟩
  have keepsUp : ¬ Outpaced changedInTime := settled.mp (by decide)
  exact ⟨running, keepsUp, by decide, counts keepsUp 17⟩

/-- The slowest rate is given up for the fastest one when the counter carries five
cycles. -/
def changedLate : List Event :=
  [.step 2, .write .tac 0x04, .step 3, .step 2, .write .tac 0x05]

/-- The three cycles that follow are counted as eight. -/
theorem changedLate_is_outpaced :
    (afterEvents changedLate).isEnabled = true ∧ (afterEvents changedLate).period = 1 ∧
      ¬ (afterEvents changedLate).timaClock < (afterEvents changedLate).period ∧
      (afterEvents changedLate).dueCounts 3 = 8 ∧
      ¬ (afterEvents changedLate).dueCounts 3 <= 3 / (afterEvents changedLate).period + 1 := by
  decide

end Timer

end Dmg
