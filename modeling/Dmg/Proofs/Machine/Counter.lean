import Dmg.Machine.Counter
import Dmg.Proofs.Machine.Pictures

/-!
# Frames that are counted in a word

A frame ends when its clock cycles are spent, and every call for an instruction spends
some.  Yet the clock cycles are counted in a word, and the last instruction may take the
count past the largest number that a word holds.  The count then starts over, and so does
the frame.

So a frame ends in time exactly if all that it counts fits the word.  This is so whenever
the frame leaves room for the longest instruction, and otherwise it depends on the
instructions.
-/

namespace Dmg

namespace InterruptControl

/-- Where nothing is pending, nothing was pending before more was requested. -/
theorem pending_of_request {control : InterruptControl} {requests : UInt8}
    (quiet : (control.request requests).pending = 0) : control.pending = 0 := by
  have parts : (control.request requests).pending =
      control.pending ||| (requests &&& control.permissions &&& Interrupt.allMask) := by
    rw [pending, pending, readRequests, readRequests, request, ← UInt8.or_assoc,
      UInt8.and_comm control.permissions, UInt8.and_comm control.permissions,
      Bits.and_or_distrib, Bits.and_or_distrib]
  rw [parts, UInt8.or_eq_zero_iff] at quiet
  exact quiet.1

end InterruptControl

namespace Wired

/-- Where nothing is pending behind an idle cycle, nothing was pending before it. -/
theorem pending_of_idleFor_succ {wired : Wired Board} {count : Nat}
    (quiet : (wired.idleFor (count + 1)).pending = 0) : (wired.idleFor count).pending = 0 := by
  rw [← idleFor_succ] at quiet
  exact InterruptControl.pending_of_request quiet

theorem pending_of_isAsked {wired : Wired Board} (unasked : wired.isAsked = false) :
    wired.pending = 0 := by
  change (wired.pending != 0) = false at unasked
  rw [bne_eq_false_iff_eq] at unasked
  exact unasked

end Wired

namespace Machine

/-! ## Counting call by call -/

/-- How a frame goes on that is counted in a word: how many instructions it calls for, why
it ends, and what it leaves behind. -/
inductive Counts (budget : UInt32) :
    Machine -> UInt32 -> Nat -> Except DecodeError FrameOutcome -> Machine -> Prop where
  | completed {machine : Machine} {elapsed : UInt32} (spent : ¬ elapsed < budget) :
      Counts budget machine elapsed 0 (.ok .completed) machine
  | stopped {machine : Machine} {elapsed : UInt32} (more : elapsed < budget)
      (stopped : machine.cpu.stopped = true) :
      Counts budget machine elapsed 0 (.ok .stopped) machine
  | paused {machine : Machine} {elapsed : UInt32} (more : elapsed < budget)
      (running : machine.cpu.stopped = false) (pauses : machine.isAtBreakpoint = true) :
      Counts budget machine elapsed 0 (.ok (.breakpoint machine.cpu.registers.pc))
        { machine with pausedAt := some machine.cpu.registers.pc }
  | failed {machine next : Machine} {elapsed : UInt32} {failure : DecodeError}
      (more : elapsed < budget) (running : machine.cpu.stopped = false)
      (free : machine.isAtBreakpoint = false)
      (stepped : machine.unpaused.step = (.error failure, next)) :
      Counts budget machine elapsed 1 (.error failure) next
  | called {machine next last : Machine} {elapsed : UInt32} {timing : Timing} {count : Nat}
      {outcome : Except DecodeError FrameOutcome} (more : elapsed < budget)
      (running : machine.cpu.stopped = false) (free : machine.isAtBreakpoint = false)
      (stepped : machine.unpaused.step = (.ok timing, next))
      (rest : Counts budget next (elapsed + UInt32.ofNat timing.clocks) count outcome last) :
      Counts budget machine elapsed (count + 1) outcome last

section Call

variable {budget elapsed : UInt32} {machine next last : Machine} {count : Nat}
  {outcome : Except DecodeError FrameOutcome}

/-- A frame that calls for an instruction goes on behind it. -/
theorem counts_iff_of_ok {timing : Timing} (more : elapsed < budget)
    (running : machine.cpu.stopped = false) (free : machine.isAtBreakpoint = false)
    (stepped : machine.unpaused.step = (.ok timing, next)) :
    Counts budget machine elapsed count outcome last ↔
      ∃ rest, count = rest + 1 ∧
        Counts budget next (elapsed + UInt32.ofNat timing.clocks) rest outcome last := by
  constructor
  · intro counts
    cases counts with
    | completed spent => exact absurd more spent
    | stopped _ stopped => exact absurd (running.symm.trans stopped) Bool.false_ne_true
    | paused _ _ pauses => exact absurd (free.symm.trans pauses) Bool.false_ne_true
    | failed _ _ _ failed =>
        rw [stepped] at failed
        cases failed
    | called _ _ _ same rest =>
        rw [stepped] at same
        cases same
        exact ⟨_, rfl, rest⟩
  · rintro ⟨rest, rfl, counts⟩
    exact .called more running free stepped counts

end Call

/-! ## Waiting at once -/

/-- The machine behind some idle cycles. -/
def restedFor (machine : Machine) (cycles : Nat) : Machine :=
  { machine.unpaused with core := machine.core.idleFor cycles }

theorem Waits.restedFor {machine : Machine} (waits : machine.Waits) (cycles : Nat) :
    (machine.restedFor cycles).Waits :=
  waits.unpaused.idleFor cycles

/-- A call for an instruction of a machine that waits is an idle cycle. -/
theorem Waits.step_restedFor {machine : Machine} (waits : machine.Waits) {cycles : Nat}
    (quiet : (machine.restedFor (cycles + 1)).core.pending = 0) :
    (machine.restedFor cycles).step = (.ok Wired.idleTiming, machine.restedFor (cycles + 1)) := by
  have idle := (waits.restedFor cycles).isIdle
  have check : (machine.restedFor cycles).core.atCheck = machine.core.idleFor (cycles + 1) := by
    rw [Wired.atCheck_of_isIdle idle]
    exact Wired.idleFor_succ machine.core cycles
  have step := (waits.restedFor cycles).step_of_quiet (by rw [check]; exact quiet)
  rw [check] at step
  exact step

section Rests

variable {budget elapsed : UInt32} {machine last : Machine} {cycles count : Nat}
  {outcome : Except DecodeError FrameOutcome}

/-- The count behind some clock cycles that fit the word. -/
theorem toNat_add_ofNat {clocks : Nat} (fits : elapsed.toNat + clocks < UInt32.size) :
    (elapsed + UInt32.ofNat clocks).toNat = elapsed.toNat + clocks := by
  have size : UInt32.size = 2 ^ 32 := rfl
  rw [UInt32.toNat_add, UInt32.toNat_ofNat', Nat.add_mod_mod, Nat.mod_eq_of_lt (size ▸ fits)]

/-- A wait that fits the budget can be gone through call by call or at once.  Whatever is
requested stays requested, so it is enough that nothing is at the end. -/
theorem Waits.counts_unpaused (waits : machine.Waits)
    (quiet : (machine.restedFor cycles).core.pending = 0)
    (fits : elapsed.toNat + 4 * cycles < budget.toNat) :
    Counts budget machine.unpaused elapsed count outcome last ↔
      ∃ rest, count = cycles + rest ∧
        Counts budget (machine.restedFor cycles) (elapsed + UInt32.ofNat (4 * cycles)) rest
          outcome last := by
  induction cycles with
  | zero =>
      change _ ↔ ∃ rest, count = 0 + rest ∧
        Counts budget machine.unpaused (elapsed + 0) rest outcome last
      rw [UInt32.add_zero]
      constructor
      · intro counts
        exact ⟨count, (Nat.zero_add count).symm, counts⟩
      · rintro ⟨rest, rfl, counts⟩
        rw [Nat.zero_add]
        exact counts
  | succ cycles inductionHypothesis =>
      have bound := budget.toNat_lt
      have before : (machine.restedFor cycles).core.pending = 0 :=
        Wired.pending_of_idleFor_succ quiet
      have spent : (elapsed + UInt32.ofNat (4 * cycles)).toNat = elapsed.toNat + 4 * cycles :=
        toNat_add_ofNat (by rw [UInt32.size]; omega)
      have more : elapsed + UInt32.ofNat (4 * cycles) < budget := by
        rw [UInt32.lt_iff_toNat_lt, spent]
        omega
      have still := waits.restedFor cycles
      have sum : elapsed + UInt32.ofNat (4 * cycles) + UInt32.ofNat Wired.idleTiming.clocks =
          elapsed + UInt32.ofNat (4 * (cycles + 1)) := by
        rw [UInt32.add_assoc, ← UInt32.ofNat_add]
        rfl
      rw [inductionHypothesis before (by omega)]
      simp only [counts_iff_of_ok more still.running still.isAtBreakpoint
        (waits.step_restedFor quiet), sum]
      constructor
      · rintro ⟨_, rfl, rest, rfl, counts⟩
        exact ⟨rest, by omega, counts⟩
      · rintro ⟨rest, rfl, counts⟩
        exact ⟨rest + 1, by omega, rest, rfl, counts⟩

/-- Where a machine has paused does not matter while it waits. -/
theorem Waits.counts_iff (waits : machine.Waits) (more : elapsed < budget) :
    Counts budget machine elapsed count outcome last ↔
      Counts budget machine.unpaused elapsed count outcome last := by
  rcases stepped : machine.unpaused.step with ⟨answer, next⟩
  cases answer with
  | ok timing =>
      rw [counts_iff_of_ok more waits.running waits.isAtBreakpoint stepped,
        counts_iff_of_ok more waits.unpaused.running waits.unpaused.isAtBreakpoint stepped]
  | error failure =>
      rw [waits.unpaused.step_eq] at stepped
      cases stepped

end Rests

/-- A wait that is found fits what is left, and nothing is asked for until it is over. -/
structure Rests (machine : Machine) (left cycles : Nat) : Prop where
  waits : machine.Waits
  positive : 0 < cycles
  fits : 4 * cycles < left
  quiet : (machine.restedFor cycles).core.pending = 0

theorem waits_of_isResting {machine : Machine} (resting : machine.isResting = true) :
    machine.Waits := by
  rw [isResting, Bool.and_eq_true, Bool.and_eq_true, Bool.and_eq_true, Bool.not_eq_eq_eq_not,
    Option.isNone_iff_eq_none] at resting
  rcases resting with ⟨⟨⟨healthy, halted⟩, running⟩, -⟩
  exact ⟨healthy, halted, running⟩

theorem rested?_eq_some {machine rested : Machine} {cycles : Nat} (positive : 0 < cycles)
    (found : machine.rested? cycles = some rested) :
    rested = machine.restedFor cycles ∧ (machine.restedFor cycles).core.pending = 0 := by
  have rest : machine.core.rest cycles = machine.core.idleFor cycles := by
    cases cycles with
    | zero => exact absurd positive (Nat.lt_irrefl 0)
    | succ cycles => rfl
  rw [rested?, rest] at found
  split at found
  · cases found
  · next unasked =>
    cases found
    exact ⟨rfl, Wired.pending_of_isAsked (Bool.eq_false_iff.mpr unasked)⟩

theorem restLengths_pos {cycles : Nat} (member : cycles ∈ restLengths) : 0 < cycles := by
  revert cycles
  decide

theorem findRest?_eq_some {machine rested : Machine} {left cycles : Nat}
    (found : machine.findRest? left = some (cycles, rested)) :
    machine.Rests left cycles ∧ rested = machine.restedFor cycles := by
  rw [findRest?] at found
  split at found
  · next resting =>
    rcases List.exists_of_findSome?_eq_some found with ⟨length, member, tried⟩
    have positive := restLengths_pos member
    split at tried
    · next fits =>
      rcases Option.map_eq_some_iff.mp tried with ⟨later, behind, same⟩
      cases same
      rcases rested?_eq_some positive behind with ⟨whole, quiet⟩
      exact ⟨⟨waits_of_isResting resting, positive, fits, quiet⟩, whole⟩
    · cases tried
  · cases found

theorem Rests.counts_iff {budget elapsed : UInt32} {machine last : Machine} {cycles count : Nat}
    {outcome : Except DecodeError FrameOutcome}
    (rests : machine.Rests (budget.toNat - elapsed.toNat) cycles) :
    Counts budget machine elapsed count outcome last ↔
      ∃ rest, count = cycles + rest ∧
        Counts budget (machine.restedFor cycles) (elapsed + UInt32.ofNat (4 * cycles)) rest
          outcome last := by
  have fits := rests.fits
  have more : elapsed < budget := by
    rw [UInt32.lt_iff_toNat_lt]
    omega
  rw [rests.waits.counts_iff more, rests.waits.counts_unpaused rests.quiet (by omega)]

/-! ## What is counted -/

section CountUntil

variable {budget elapsed : UInt32} {machine last : Machine} {rounds count : Nat}
  {outcome : Except DecodeError FrameOutcome}

theorem exists_counts (counted : countUntil budget rounds machine elapsed = some (outcome, last)) :
    ∃ count, Counts budget machine elapsed count outcome last := by
  induction rounds generalizing machine elapsed with
  | zero => cases counted
  | succ rounds inductionHypothesis =>
      rw [countUntil] at counted
      split at counted
      · next cycles rested found =>
        rcases findRest?_eq_some found with ⟨rests, rfl⟩
        rcases inductionHypothesis counted with ⟨rest, counts⟩
        exact ⟨cycles + rest, rests.counts_iff.mpr ⟨rest, rfl, counts⟩⟩
      · split at counted
        · next more =>
          split at counted
          · next stopped =>
            cases counted
            exact ⟨0, .stopped more stopped⟩
          · next running =>
            have moves := Bool.eq_false_iff.mpr running
            split at counted
            · next pauses =>
              cases counted
              exact ⟨0, .paused more moves pauses⟩
            · next free =>
              have passes := Bool.eq_false_iff.mpr free
              split at counted
              · next failure next stepped =>
                cases counted
                exact ⟨1, .failed more moves passes stepped⟩
              · next timing next stepped =>
                rcases inductionHypothesis counted with ⟨rest, counts⟩
                exact ⟨rest + 1, .called more moves passes stepped counts⟩
        · next spent =>
          cases counted
          exact ⟨0, .completed spent⟩

theorem countUntil_of_step {next : Machine} {answer : Except DecodeError Timing}
    (searched : machine.findRest? (budget.toNat - elapsed.toNat) = none)
    (more : elapsed < budget) (running : machine.cpu.stopped = false)
    (free : machine.isAtBreakpoint = false) (stepped : machine.unpaused.step = (answer, next)) :
    countUntil budget (rounds + 1) machine elapsed =
      match answer with
      | .error failure => some (.error failure, next)
      | .ok timing =>
          countUntil budget rounds next (elapsed + UInt32.ofNat timing.clocks) := by
  have plain : ({ machine with pausedAt := none } : Machine).step = (answer, next) := stepped
  rw [countUntil, searched, running, free]
  dsimp only
  rw [if_pos more, if_neg Bool.false_ne_true, if_neg Bool.false_ne_true, plain]
  cases answer <;> rfl

/-- A count that comes to its end has done so after as many rounds as calls, and one to see
it. -/
theorem Counts.countUntil_eq (counts : Counts budget machine elapsed count outcome last)
    (enough : count < rounds) :
    countUntil budget rounds machine elapsed = some (outcome, last) := by
  induction rounds generalizing machine elapsed count with
  | zero => exact absurd enough (Nat.not_lt_zero count)
  | succ rounds inductionHypothesis =>
      cases searched : machine.findRest? (budget.toNat - elapsed.toNat) with
      | some found =>
          rcases found with ⟨cycles, rested⟩
          rcases findRest?_eq_some searched with ⟨rests, rfl⟩
          rcases rests.counts_iff.mp counts with ⟨rest, rfl, later⟩
          have positive := rests.positive
          rw [countUntil, searched]
          exact inductionHypothesis later (by omega)
      | none =>
          cases counts with
          | completed spent => rw [countUntil, searched, if_neg spent]
          | stopped more stopped => rw [countUntil, searched, if_pos more, if_pos stopped]
          | paused more running pauses =>
              rw [countUntil, searched, if_pos more, if_neg (Bool.eq_false_iff.mp running),
                if_pos pauses]
          | failed more running free stepped =>
              rw [countUntil_of_step searched more running free stepped]
          | called more running free stepped rest =>
              rw [countUntil_of_step searched more running free stepped]
              exact inductionHypothesis rest (Nat.lt_of_succ_lt_succ enough)

/-- The count has an outcome exactly if it comes to its end call by call. -/
theorem exists_countUntil_iff :
    (∃ rounds, countUntil budget rounds machine elapsed = some (outcome, last)) ↔
      ∃ count, Counts budget machine elapsed count outcome last :=
  ⟨fun ⟨_, counted⟩ => exists_counts counted,
    fun ⟨count, counts⟩ => ⟨count + 1, counts.countUntil_eq (Nat.lt_succ_self count)⟩⟩

end CountUntil

/-! ## A count that fits the word -/

/-- A frame goes on in one way only. -/
theorem Goes.eq {budget elapsed : Nat} {machine last : Machine} {calls : List Machine}
    {outcome : Except DecodeError FrameOutcome}
    (goes : Goes budget machine elapsed calls outcome last) :
    calls = callsUntil budget machine elapsed ∧
      (outcome, last) = runUntil budget machine elapsed := by
  induction goes with
  | completed spent =>
      rw [callsUntil, runUntil, if_neg (Nat.not_lt.mpr spent), if_neg (Nat.not_lt.mpr spent)]
      exact ⟨rfl, rfl⟩
  | stopped more stopped =>
      rw [callsUntil, runUntil, if_pos more, if_pos more, stopped]
      exact ⟨rfl, rfl⟩
  | paused more running pauses =>
      rw [callsUntil, runUntil, if_pos more, if_pos more, running, pauses]
      exact ⟨rfl, rfl⟩
  | failed more running free stepped =>
      rw [callsUntil_of_step more running free stepped, runUntil_of_step more running free stepped]
      exact ⟨rfl, rfl⟩
  | called more running free stepped rest inductionHypothesis =>
      rw [callsUntil_of_step more running free stepped, runUntil_of_step more running free stepped]
      exact ⟨congrArg _ inductionHypothesis.1, inductionHypothesis.2⟩

/-- Every call for an instruction takes a machine cycle at least. -/
theorem Goes.calls_le {budget elapsed : Nat} {machine last : Machine} {calls : List Machine}
    {outcome : Except DecodeError FrameOutcome}
    (goes : Goes budget machine elapsed calls outcome last) :
    4 * calls.length <= budget - elapsed + 3 := by
  induction goes with
  | completed | stopped | paused => exact Nat.zero_le _
  | failed more =>
      rw [List.length_singleton]
      omega
  | called more running free stepped rest inductionHypothesis =>
      have least := (timed_of_step stepped).least
      rw [List.length_cons]
      omega

theorem spent_of_stepped {machine next : Machine} {timing : Timing}
    (stepped : machine.unpaused.step = (.ok timing, next)) (count : Nat) :
    machine.spent (count + 1) = timing.clocks + next.spent count := by
  rw [← spent_unpaused, spent_of_ok stepped]

section Fits

variable {budget : UInt32} {machine last : Machine} {clocks count : Nat}
  {outcome : Except DecodeError FrameOutcome}

theorem ofNat_lt_iff (fits : clocks < UInt32.size) :
    UInt32.ofNat clocks < budget ↔ clocks < budget.toNat := by
  rw [UInt32.lt_iff_toNat_lt, UInt32.toNat_ofNat_of_lt' fits]

theorem ofNat_lt (more : clocks < budget.toNat) : UInt32.ofNat clocks < budget :=
  (ofNat_lt_iff (Nat.lt_trans more budget.toNat_lt)).mpr more

/-- As long as the count fits the word, it is a count of clock cycles. -/
theorem Counts.goes {elapsed : UInt32} (counts : Counts budget machine elapsed count outcome last)
    (same : elapsed = UInt32.ofNat clocks)
    (fits : ∀ earlier, earlier <= count -> clocks + machine.spent earlier < UInt32.size) :
    ∃ calls, calls.length = count ∧ Goes budget.toNat machine clocks calls outcome last := by
  have start : clocks < UInt32.size := fits 0 (Nat.zero_le count)
  induction counts generalizing clocks with
  | completed spent =>
      rw [same, ofNat_lt_iff start, Nat.not_lt] at spent
      exact ⟨[], rfl, .completed spent⟩
  | stopped more stopped =>
      rw [same, ofNat_lt_iff start] at more
      exact ⟨[], rfl, .stopped more stopped⟩
  | paused more running pauses =>
      rw [same, ofNat_lt_iff start] at more
      exact ⟨[], rfl, .paused more running pauses⟩
  | failed more running free stepped =>
      rw [same, ofNat_lt_iff start] at more
      exact ⟨[_], rfl, .failed more running free stepped⟩
  | @called machine next last elapsed timing count outcome more running free stepped rest
      inductionHypothesis =>
      have later : ∀ earlier, earlier <= count ->
          clocks + timing.clocks + next.spent earlier < UInt32.size := by
        intro earlier less
        rw [Nat.add_assoc, ← spent_of_stepped stepped]
        exact fits (earlier + 1) (Nat.succ_le_succ less)
      have sum : elapsed + UInt32.ofNat timing.clocks = UInt32.ofNat (clocks + timing.clocks) := by
        rw [same, UInt32.ofNat_add]
      rcases inductionHypothesis sum later (later 0 (Nat.zero_le count)) with
        ⟨calls, length, goes⟩
      rw [same, ofNat_lt_iff start] at more
      exact ⟨machine.unpaused :: calls, congrArg Nat.succ length,
        .called more running free stepped goes⟩

theorem Goes.counts {calls : List Machine}
    (goes : Goes budget.toNat machine clocks calls outcome last)
    (fits : clocks + machine.spent calls.length < UInt32.size) :
    Counts budget machine (UInt32.ofNat clocks) calls.length outcome last := by
  induction goes with
  | completed spent => exact .completed (mt (ofNat_lt_iff fits).mp (Nat.not_lt.mpr spent))
  | stopped more stopped => exact .stopped (ofNat_lt more) stopped
  | paused more running pauses => exact .paused (ofNat_lt more) running pauses
  | failed more running free stepped => exact .failed (ofNat_lt more) running free stepped
  | called more running free stepped rest inductionHypothesis =>
      rw [List.length_cons, spent_of_stepped stepped, ← Nat.add_assoc] at fits
      have counts := inductionHypothesis fits
      rw [UInt32.ofNat_add] at counts
      exact .called (ofNat_lt more) running free stepped counts

/-- A frame whose clock cycles are spent would be complete.  Counted in a word it goes on
from what is left of the count. -/
theorem Goes.counts_iff {calls : List Machine} {rounds : Nat} {final : Machine}
    {answer : Except DecodeError FrameOutcome}
    (goes : Goes budget.toNat machine clocks calls outcome last)
    (completed : outcome = .ok .completed) :
    Counts budget machine (UInt32.ofNat clocks) rounds answer final ↔
      ∃ rest, rounds = calls.length + rest ∧
        Counts budget last (UInt32.ofNat (clocks + machine.spent calls.length)) rest answer
          final := by
  induction goes generalizing rounds with
  | completed spent =>
      constructor
      · intro counts
        exact ⟨rounds, (Nat.zero_add rounds).symm, counts⟩
      · rintro ⟨rest, rfl, counts⟩
        rw [List.length_nil, Nat.zero_add]
        exact counts
  | stopped | paused | failed => cases completed
  | called more running free stepped rest inductionHypothesis =>
      rw [counts_iff_of_ok (ofNat_lt more) running free stepped, ← UInt32.ofNat_add,
        List.length_cons, spent_of_stepped stepped, ← Nat.add_assoc]
      simp only [inductionHypothesis completed]
      constructor
      · rintro ⟨_, rfl, rest, rfl, counts⟩
        exact ⟨rest, Nat.add_right_comm _ _ _, counts⟩
      · rintro ⟨rest, rfl, counts⟩
        exact ⟨_, Nat.add_right_comm _ _ _, rest, rfl, counts⟩

end Fits

/-! ## Counted frames -/

/-- How a counted frame goes: how many instructions it calls for, why it ends, and what it
leaves behind. -/
def FrameCounts (machine : Machine) (count : Nat) (outcome : Except DecodeError FrameOutcome)
    (last : Machine) : Prop :=
  if machine.isFrozen then count = 0 ∧ outcome = .ok .frozen ∧ last = machine
  else Counts (UInt32.ofNat machine.config.cyclesPerFrame) machine 0 count outcome last

/-- A frame that comes to its end after no more calls for an instruction than it has machine
cycles, and that takes no more clock cycles meanwhile than the word counts. -/
def EndsInTime (machine : Machine) : Prop :=
  ∃ count outcome last, machine.FrameCounts count outcome last ∧
    count <= (machine.config.cyclesPerFrame + 3) / 4 ∧
    ∀ earlier, earlier <= count -> machine.spent earlier < UInt32.size

theorem FrameCounts.countFrame_eq {machine last : Machine} {rounds count : Nat}
    {outcome : Except DecodeError FrameOutcome} (counts : machine.FrameCounts count outcome last)
    (enough : count < rounds) : machine.countFrame rounds = some (outcome, last) := by
  rw [FrameCounts] at counts
  rw [countFrame]
  split at counts
  · next frozen =>
    rcases counts with ⟨rfl, rfl, rfl⟩
    exact if_pos frozen
  · next free =>
    rw [if_neg free]
    exact counts.countUntil_eq enough

theorem exists_frameCounts {machine last : Machine} {rounds : Nat}
    {outcome : Except DecodeError FrameOutcome}
    (counted : machine.countFrame rounds = some (outcome, last)) :
    ∃ count, machine.FrameCounts count outcome last := by
  rw [countFrame] at counted
  split at counted
  · next frozen =>
    cases counted
    exact ⟨0, (if_pos frozen).mpr ⟨rfl, rfl, rfl⟩⟩
  · next free =>
    rcases exists_counts counted with ⟨count, counts⟩
    exact ⟨count, (if_neg free).mpr counts⟩

/-- A counted frame has an outcome exactly if it comes to its end call by call. -/
theorem exists_countFrame_iff {machine last : Machine}
    {outcome : Except DecodeError FrameOutcome} :
    (∃ rounds, machine.countFrame rounds = some (outcome, last)) ↔
      ∃ count, machine.FrameCounts count outcome last :=
  ⟨fun ⟨_, counted⟩ => exists_frameCounts counted,
    fun ⟨count, counts⟩ => ⟨count + 1, counts.countFrame_eq (Nat.lt_succ_self count)⟩⟩

theorem frameCounts_iff {machine last : Machine} {count : Nat}
    {outcome : Except DecodeError FrameOutcome} (healthy : machine.fault = none) :
    machine.FrameCounts count outcome last ↔
      Counts (UInt32.ofNat machine.config.cyclesPerFrame) machine (UInt32.ofNat 0) count outcome
        last := by
  have free : machine.isFrozen = false := by
    rw [isFrozen, healthy]
    rfl
  rw [FrameCounts, free]
  rfl

theorem spent_le_spent (machine : Machine) {early late : Nat} (order : early <= late) :
    machine.spent early <= machine.spent late := by
  induction order with
  | refl => exact Nat.le_refl _
  | step _ inductionHypothesis =>
      rw [spent_succ]
      exact Nat.le_trans inductionHypothesis (Nat.le_add_right _ _)

theorem spent_frameCalls_of_fault {machine : Machine} {failure : DecodeError}
    (fault : machine.fault = some failure) : machine.spent machine.frameCalls.length = 0 := by
  have nothing : machine.frameCalls = [] := by
    rw [frameCalls, isFrozen, fault]
    rfl
  rw [nothing]
  rfl

theorem Counts.reached {budget elapsed : UInt32} {machine last : Machine} {count : Nat}
    {outcome : Except DecodeError FrameOutcome}
    (counts : Counts budget machine elapsed count outcome last) :
    last.unpaused = machine.unpaused.afterSteps count := by
  induction counts with
  | completed | stopped | paused => rfl
  | failed _ _ _ stepped =>
      rw [unpaused_of_stepped stepped]
      exact (afterSteps_of_step stepped 0).symm
  | called _ _ _ stepped _ inductionHypothesis =>
      rw [unpaused_of_stepped stepped] at inductionHypothesis
      rw [inductionHypothesis, afterSteps_of_step stepped]

/-- A counted frame too goes through states that the machine goes through anyway. -/
theorem FrameCounts.reached {machine last : Machine} {count : Nat}
    {outcome : Except DecodeError FrameOutcome} (counts : machine.FrameCounts count outcome last) :
    last.unpaused = (machine.afterSteps count).unpaused := by
  rw [← afterSteps_unpaused]
  rw [FrameCounts] at counts
  split at counts
  · rcases counts with ⟨rfl, -, rfl⟩
    rfl
  · exact counts.reached

section InTime

variable {machine : Machine}

theorem frameCounts_runFrame (fits : machine.config.cyclesPerFrame < UInt32.size)
    (inside : machine.spent machine.frameCalls.length < UInt32.size) :
    machine.FrameCounts machine.frameCalls.length machine.runFrame.1 machine.runFrame.2 := by
  cases fault : machine.fault with
  | some failure =>
      rw [FrameCounts, runFrame, frameCalls, isFrozen, fault]
      exact ⟨rfl, rfl, rfl⟩
  | none =>
      have goes := goes_runFrame fault
      rw [← UInt32.toNat_ofNat_of_lt' fits] at goes
      rw [frameCounts_iff fault]
      exact goes.counts (by rw [Nat.zero_add]; exact inside)

theorem frameCalls_length_le (machine : Machine) :
    machine.frameCalls.length <= (machine.config.cyclesPerFrame + 3) / 4 := by
  rcases machine.runFrame_cases with ⟨-, nothing⟩ | ⟨-, goes⟩
  · rw [nothing]
    exact Nat.zero_le _
  · have few := goes.calls_le
    omega

/-- A frame takes less than its budget and the longest call. -/
theorem spent_frameCalls_lt (machine : Machine) :
    machine.spent machine.frameCalls.length < machine.config.cyclesPerFrame + 40 := by
  cases fault : machine.fault with
  | some failure =>
      rw [spent_frameCalls_of_fault fault]
      exact Nat.add_pos_right _ (by decide)
  | none => exact (frameOf_frameCalls fault).bounded

theorem endsInTime_of_spent (fits : machine.config.cyclesPerFrame < UInt32.size)
    (inside : machine.spent machine.frameCalls.length < UInt32.size) : machine.EndsInTime :=
  ⟨_, _, _, frameCounts_runFrame fits inside, machine.frameCalls_length_le,
    fun _ order => Nat.lt_of_le_of_lt (machine.spent_le_spent order) inside⟩

theorem spent_of_endsInTime (fits : machine.config.cyclesPerFrame < UInt32.size)
    (ends : machine.EndsInTime) : machine.spent machine.frameCalls.length < UInt32.size := by
  rcases ends with ⟨count, outcome, last, counts, -, inside⟩
  cases fault : machine.fault with
  | some failure =>
      rw [spent_frameCalls_of_fault fault]
      exact inside 0 (Nat.zero_le count)
  | none =>
      rw [frameCounts_iff fault] at counts
      rcases counts.goes rfl fun earlier order => by
        rw [Nat.zero_add]
        exact inside earlier order with ⟨calls, length, goes⟩
      rw [UInt32.toNat_ofNat_of_lt' fits] at goes
      rw [(runFrame_of_healthy fault).2, ← goes.eq.1, length]
      exact inside count (Nat.le_refl count)

/-- Where the clock cycles of a frame do not fit the word, the frame starts over with what
is left of the count. -/
theorem exists_frameCounts_iff (fits : machine.config.cyclesPerFrame < UInt32.size)
    (full : UInt32.size <= machine.spent machine.frameCalls.length) {last : Machine}
    {outcome : Except DecodeError FrameOutcome} :
    (∃ count, machine.FrameCounts count outcome last) ↔
      ∃ count, Counts (UInt32.ofNat machine.config.cyclesPerFrame) machine.runFrame.2
        (UInt32.ofNat (machine.spent machine.frameCalls.length)) count outcome last := by
  cases fault : machine.fault with
  | some failure =>
      rw [spent_frameCalls_of_fault fault] at full
      exact absurd full (by decide)
  | none =>
      have goes := goes_runFrame fault
      have spent := Nat.le_trans (Nat.le_of_lt fits) full
      have completed := (frameOf_frameCalls fault).completed.mpr spent
      rw [← UInt32.toNat_ofNat_of_lt' fits] at goes
      simp only [frameCounts_iff fault, goes.counts_iff completed, Nat.zero_add]
      constructor
      · rintro ⟨_, rest, rfl, counts⟩
        exact ⟨rest, counts⟩
      · rintro ⟨rest, counts⟩
        exact ⟨_, rest, rfl, counts⟩

end InTime

/-- A frame ends in time exactly if its clock cycles fit the word, which they do where the
budget leaves room for the longest call.  Such a frame is the one that is counted without
bounds, and there is no need to wait for it any longer than its machine cycles.  Any other
frame starts over. -/
theorem endsInTime_iff {machine : Machine} (fits : machine.config.cyclesPerFrame < UInt32.size) :
    (machine.EndsInTime ↔ machine.spent machine.frameCalls.length < UInt32.size) ∧
    (machine.config.cyclesPerFrame + 40 <= UInt32.size -> machine.EndsInTime) ∧
    (machine.EndsInTime -> ∀ rounds, (machine.config.cyclesPerFrame + 3) / 4 < rounds ->
      machine.countFrame rounds = some machine.runFrame) ∧
    (¬ machine.EndsInTime -> ∀ outcome last,
      (∃ rounds, machine.countFrame rounds = some (outcome, last)) ↔
        ∃ rounds, countUntil (UInt32.ofNat machine.config.cyclesPerFrame) rounds
          machine.runFrame.2 (UInt32.ofNat (machine.spent machine.frameCalls.length)) =
            some (outcome, last)) := by
  have same : machine.EndsInTime ↔ machine.spent machine.frameCalls.length < UInt32.size :=
    ⟨spent_of_endsInTime fits, endsInTime_of_spent fits⟩
  refine ⟨same, ?_, ?_, ?_⟩
  · intro room
    rw [same]
    exact Nat.lt_of_lt_of_le machine.spent_frameCalls_lt room
  · intro ends rounds enough
    have counts := frameCounts_runFrame fits (same.mp ends)
    exact counts.countFrame_eq (Nat.lt_of_le_of_lt machine.frameCalls_length_le enough)
  · intro late outcome last
    rw [same, Nat.not_lt] at late
    rw [exists_countFrame_iff, exists_countUntil_iff]
    exact exists_frameCounts_iff fits late

/-- A new machine has room for its frame, so the frame ends and is the one that is counted
without bounds. -/
theorem new_standard_ends_in_time :
    (new .standard).config.cyclesPerFrame < UInt32.size ∧ (new .standard).EndsInTime ∧
      (new .standard).countFrame 17557 = some (new .standard).runFrame := by
  have fits : (new .standard).config.cyclesPerFrame < UInt32.size := by decide
  rcases endsInTime_iff fits with ⟨-, roomy, whole, -⟩
  have ends := roomy (by decide)
  exact ⟨fits, ends, whole ends 17557 (by decide)⟩

/-! ## A frame without an end -/

/-- A machine that waits for ever counts in machine cycles, so its count never comes to one
of the three largest budgets. -/
theorem Dozes.not_counts {budget elapsed : UInt32} {machine last : Machine} {count : Nat}
    {outcome : Except DecodeError FrameOutcome} (dozes : machine.Dozes)
    (wide : UInt32.size < budget.toNat + 4) (whole : 4 ∣ elapsed.toNat) :
    ¬ Counts budget machine elapsed count outcome last := by
  intro counts
  rw [UInt32.size] at wide
  induction counts with
  | @completed _ elapsed spent =>
      have few := elapsed.toNat_lt
      rw [UInt32.lt_iff_toNat_lt] at spent
      omega
  | stopped _ stopped => exact Bool.false_ne_true (dozes.waits.running.symm.trans stopped)
  | paused _ _ pauses => exact Bool.false_ne_true (dozes.waits.isAtBreakpoint.symm.trans pauses)
  | failed _ _ _ stepped =>
      have answer := dozes.unpaused.step.1
      rw [stepped] at answer
      cases answer
  | called _ _ _ stepped _ inductionHypothesis =>
      have step := dozes.unpaused.step
      rw [stepped] at step
      rcases step with ⟨answer, dozing⟩
      cases answer
      refine inductionHypothesis dozing ?_
      have cycle : (UInt32.ofNat Wired.idleTiming.clocks).toNat = 4 := rfl
      rw [UInt32.toNat_add, cycle]
      omega

theorem Dozes.countFrame_eq_none {machine : Machine} (dozes : machine.Dozes)
    (fits : machine.config.cyclesPerFrame < UInt32.size)
    (wide : UInt32.size < machine.config.cyclesPerFrame + 4) :
    (∀ rounds, machine.countFrame rounds = none) ∧ ¬ machine.EndsInTime := by
  have endless : ∀ count outcome last, ¬ machine.FrameCounts count outcome last := by
    intro count outcome last
    rw [frameCounts_iff dozes.waits.healthy]
    exact dozes.not_counts (by rw [UInt32.toNat_ofNat_of_lt' fits]; exact wide) ⟨0, rfl⟩
  constructor
  · intro rounds
    rw [Option.eq_none_iff_forall_ne_some]
    rintro ⟨outcome, last⟩ counted
    rcases exists_frameCounts counted with ⟨count, counts⟩
    exact endless count outcome last counts
  · rintro ⟨count, outcome, last, counts, -⟩
    exact endless count outcome last counts

/-- A machine that waits, with the largest budget that a word holds. -/
def overtaxed : Machine :=
  (new { Config.standard with cyclesPerFrame := 4294967295 }).act
    (.setCpu { Cpu.afterBoot with halted := true })

theorem overtaxed_never_ends :
    overtaxed.config.cyclesPerFrame < UInt32.size ∧
      (∀ rounds, overtaxed.countFrame rounds = none) ∧ ¬ overtaxed.EndsInTime := by
  have fits : overtaxed.config.cyclesPerFrame < UInt32.size := by decide
  have dozes : overtaxed.Dozes := ⟨⟨rfl, rfl, rfl⟩, rfl, rfl⟩
  exact ⟨fits, dozes.countFrame_eq_none fits (by decide)⟩

end Machine

end Dmg
