import Dmg.Proofs.Machine.Steps

/-!
# A frame as a run of instructions

A frame calls for one instruction after the other until its clock cycles are
spent, unless it ends before.  All that it does besides is to remember where it
paused.  So a frame is a stretch of the sequence of states that the machine
goes through anyway, and it is as long as its clock cycles and its breakpoints
let it be.
-/

namespace Dmg

namespace Machine

/-- The machine as a frame calls it for an instruction: a breakpoint that it
paused at counts no longer. -/
def unpaused (machine : Machine) : Machine :=
  { machine with pausedAt := none }

section Unpaused

variable (machine : Machine)

theorem unpaused_eq_steered : machine.unpaused = machine.steered machine.breakpoints none :=
  rfl

theorem step_unpaused : machine.unpaused.step = (machine.step.1, machine.step.2.unpaused) := by
  rw [unpaused_eq_steered, step_steered, machine.step_eq_steered]
  rfl

theorem afterSteps_unpaused (count : Nat) :
    machine.unpaused.afterSteps count = (machine.afterSteps count).unpaused := by
  rw [unpaused_eq_steered, afterSteps_steered, machine.afterSteps_eq_steered]
  rfl

theorem spent_unpaused (count : Nat) : machine.unpaused.spent count = machine.spent count :=
  machine.spent_steered machine.breakpoints none count

end Unpaused

/-- The machines that a frame calls for an instruction, one after the other, when
some clock cycles are spent. -/
def callsUntil (budget : Nat) (machine : Machine) (elapsed : Nat) : List Machine :=
  if elapsed < budget then
    if machine.cpu.stopped || machine.isAtBreakpoint then []
    else
      machine.unpaused ::
        match stepped : machine.unpaused.step with
        | (.error _, _) => []
        | (.ok timing, next) =>
            have := step_clocks_pos stepped
            callsUntil budget next (elapsed + timing.clocks)
  else []
termination_by budget - elapsed
decreasing_by omega

/-- The machines that a frame calls for an instruction. -/
def frameCalls (machine : Machine) : List Machine :=
  if machine.isFrozen then [] else callsUntil machine.config.cyclesPerFrame machine 0

/-! ## How a frame goes on -/

/-- How a frame goes on when some clock cycles are spent: what it calls, why it
ends, and what it leaves behind. -/
inductive Goes (budget : Nat) :
    Machine -> Nat -> List Machine -> Except DecodeError FrameOutcome -> Machine -> Prop where
  | completed {machine : Machine} {elapsed : Nat} (spent : budget <= elapsed) :
      Goes budget machine elapsed [] (.ok .completed) machine
  | stopped {machine : Machine} {elapsed : Nat} (more : elapsed < budget)
      (stopped : machine.cpu.stopped = true) :
      Goes budget machine elapsed [] (.ok .stopped) machine
  | paused {machine : Machine} {elapsed : Nat} (more : elapsed < budget)
      (running : machine.cpu.stopped = false) (pauses : machine.isAtBreakpoint = true) :
      Goes budget machine elapsed [] (.ok (.breakpoint machine.cpu.registers.pc))
        { machine with pausedAt := some machine.cpu.registers.pc }
  | failed {machine next : Machine} {elapsed : Nat} {failure : DecodeError}
      (more : elapsed < budget) (running : machine.cpu.stopped = false)
      (free : machine.isAtBreakpoint = false)
      (stepped : machine.unpaused.step = (.error failure, next)) :
      Goes budget machine elapsed [machine.unpaused] (.error failure) next
  | called {machine next last : Machine} {elapsed : Nat} {timing : Timing}
      {calls : List Machine} {outcome : Except DecodeError FrameOutcome}
      (more : elapsed < budget) (running : machine.cpu.stopped = false)
      (free : machine.isAtBreakpoint = false)
      (stepped : machine.unpaused.step = (.ok timing, next))
      (rest : Goes budget next (elapsed + timing.clocks) calls outcome last) :
      Goes budget machine elapsed (machine.unpaused :: calls) outcome last

section Call

variable {budget elapsed : Nat} {machine next : Machine} {answer : Except DecodeError Timing}

theorem runUntil_of_step (more : elapsed < budget) (running : machine.cpu.stopped = false)
    (free : machine.isAtBreakpoint = false) (stepped : machine.unpaused.step = (answer, next)) :
    runUntil budget machine elapsed =
      match answer with
      | .error failure => (.error failure, next)
      | .ok timing => runUntil budget next (elapsed + timing.clocks) := by
  rw [runUntil, if_pos more, running, free]
  change (match same : machine.unpaused.step with
    | (.error failure, machine) => _
    | (.ok timing, machine) => _) = _
  split <;> next same =>
    rw [stepped] at same
    cases same
    rfl

theorem callsUntil_of_step (more : elapsed < budget) (running : machine.cpu.stopped = false)
    (free : machine.isAtBreakpoint = false) (stepped : machine.unpaused.step = (answer, next)) :
    callsUntil budget machine elapsed = machine.unpaused ::
      match answer with
      | .error _ => []
      | .ok timing => callsUntil budget next (elapsed + timing.clocks) := by
  rw [callsUntil, if_pos more, running, free]
  change machine.unpaused :: _ = _
  split <;> next same =>
    rw [stepped] at same
    cases same
    rfl

end Call

theorem goes_runUntil (budget : Nat) (machine : Machine) (elapsed : Nat) :
    Goes budget machine elapsed (callsUntil budget machine elapsed)
      (runUntil budget machine elapsed).1 (runUntil budget machine elapsed).2 := by
  induction machine, elapsed using runUntil.induct budget with
  | case1 machine elapsed more stopped =>
      rw [runUntil, callsUntil, if_pos more, if_pos more, if_pos stopped, stopped]
      exact .stopped more stopped
  | case2 machine elapsed more running pauses =>
      have moves := Bool.eq_false_iff.mpr running
      rw [runUntil, callsUntil, if_pos more, if_pos more, if_neg running, if_pos pauses, moves,
        pauses]
      exact .paused more moves pauses
  | case3 machine elapsed more running free failure next stepped =>
      have moves := Bool.eq_false_iff.mpr running
      have passes := Bool.eq_false_iff.mpr free
      rw [runUntil_of_step more moves passes stepped, callsUntil_of_step more moves passes stepped]
      exact .failed more moves passes stepped
  | case4 machine elapsed more running free timing next stepped positive inductionHypothesis =>
      have moves := Bool.eq_false_iff.mpr running
      have passes := Bool.eq_false_iff.mpr free
      rw [runUntil_of_step more moves passes stepped, callsUntil_of_step more moves passes stepped]
      exact .called more moves passes stepped inductionHypothesis
  | case5 machine elapsed spent =>
      rw [runUntil, callsUntil, if_neg spent, if_neg spent]
      exact .completed (Nat.not_lt.mp spent)

/-! ## What the calls amount to -/

theorem unpaused_of_stepped {machine next : Machine} {answer : Except DecodeError Timing}
    (stepped : machine.unpaused.step = (answer, next)) : next.unpaused = next := by
  rw [step_unpaused] at stepped
  cases stepped
  rfl

/-- The calls of a frame go through the states that the machine goes through
anyway, for as long as the clock cycles last. -/
structure Stretch (budget : Nat) (start : Machine) (elapsed : Nat) (calls : List Machine)
    (outcome : Except DecodeError FrameOutcome) (last : Machine) : Prop where
  called : calls = (List.range calls.length).map start.afterSteps
  reached : last.unpaused = start.afterSteps calls.length
  within : ∀ earlier, earlier < calls.length -> elapsed + start.spent earlier < budget
  succeeds : ∀ earlier, earlier + 1 < calls.length ->
    ∃ timing, (start.afterSteps earlier).step.1 = .ok timing
  completed : outcome = .ok .completed ↔ budget <= elapsed + start.spent calls.length
  fails : ∀ failure, outcome = .error failure ↔
    ∃ before, calls.length = before + 1 ∧ (start.afterSteps before).step.1 = .error failure

/-- A frame that ends without a call. -/
theorem stretch_nil {budget elapsed : Nat} {machine last : Machine} {outcome : FrameOutcome}
    (same : last.unpaused = machine.unpaused)
    (completed : outcome = .completed ↔ budget <= elapsed) :
    Stretch budget machine.unpaused elapsed [] (.ok outcome) last where
  called := rfl
  reached := same
  within := fun _ less => absurd less (Nat.not_lt_zero _)
  succeeds := fun _ less => absurd less (Nat.not_lt_zero _)
  completed := by
    rw [Except.ok.injEq]
    exact completed
  fails := by
    intro failure
    constructor
    · nofun
    · rintro ⟨before, length, -⟩
      cases length

/-- A call that fails is the last one of its frame. -/
theorem stretch_failed {budget elapsed : Nat} {machine next : Machine} {failure : DecodeError}
    (more : elapsed < budget) (stepped : machine.unpaused.step = (.error failure, next)) :
    Stretch budget machine.unpaused elapsed [machine.unpaused] (.error failure) next where
  called := rfl
  reached := by
    rw [unpaused_of_stepped stepped]
    exact (afterSteps_of_step stepped 0).symm
  within := by
    intro earlier less
    rw [Nat.lt_one_iff.mp less]
    exact more
  succeeds := fun _ less => absurd less (by simp)
  completed := by
    have nothing : machine.unpaused.spent 1 = 0 := stepClocks_of_error stepped
    change _ ↔ budget <= elapsed + machine.unpaused.spent 1
    rw [nothing]
    constructor
    · nofun
    · intro spent
      omega
  fails := by
    intro other
    constructor
    · intro same
      cases same
      exact ⟨0, rfl, congrArg Prod.fst stepped⟩
    · rintro ⟨before, length, failed⟩
      cases length
      change machine.unpaused.step.1 = _ at failed
      rw [stepped] at failed
      cases failed
      rfl

theorem Stretch.cons {budget elapsed : Nat} {start next last : Machine} {timing : Timing}
    {calls : List Machine} {outcome : Except DecodeError FrameOutcome}
    (more : elapsed < budget) (stepped : start.step = (.ok timing, next))
    (rest : Stretch budget next (elapsed + timing.clocks) calls outcome last) :
    Stretch budget start elapsed (start :: calls) outcome last where
  called := by
    have later : start.afterSteps ∘ Nat.succ = next.afterSteps :=
      funext (afterSteps_of_step stepped)
    rw [List.length_cons, List.range_succ_eq_map, List.map_cons, List.map_map, later, ← rest.called]
    rfl
  reached := rest.reached.trans (afterSteps_of_step stepped calls.length).symm
  within := by
    intro earlier less
    cases earlier with
    | zero => exact more
    | succ earlier =>
        rw [spent_of_ok stepped, ← Nat.add_assoc]
        exact rest.within earlier (Nat.lt_of_succ_lt_succ less)
  succeeds := by
    intro earlier less
    cases earlier with
    | zero => exact ⟨timing, congrArg Prod.fst stepped⟩
    | succ earlier =>
        rw [afterSteps_of_step stepped]
        exact rest.succeeds earlier (Nat.lt_of_succ_lt_succ less)
  completed := by
    rw [List.length_cons, spent_of_ok stepped, ← Nat.add_assoc]
    exact rest.completed
  fails := by
    intro failure
    rw [rest.fails failure]
    constructor
    · rintro ⟨before, length, failed⟩
      refine ⟨before + 1, congrArg Nat.succ length, ?_⟩
      rw [afterSteps_of_step stepped]
      exact failed
    · rintro ⟨before, length, failed⟩
      cases before with
      | zero =>
          change start.step.1 = _ at failed
          rw [stepped] at failed
          cases failed
      | succ before =>
          rw [afterSteps_of_step stepped] at failed
          exact ⟨before, Nat.succ.inj length, failed⟩

theorem Goes.stretch {budget elapsed : Nat} {machine last : Machine} {calls : List Machine}
    {outcome : Except DecodeError FrameOutcome}
    (goes : Goes budget machine elapsed calls outcome last) :
    Stretch budget machine.unpaused elapsed calls outcome last := by
  induction goes with
  | completed spent => exact stretch_nil rfl (iff_of_true rfl spent)
  | stopped more => exact stretch_nil rfl (iff_of_false nofun (Nat.not_le.mpr more))
  | paused more => exact stretch_nil rfl (iff_of_false nofun (Nat.not_le.mpr more))
  | failed more running free stepped => exact stretch_failed more stepped
  | called more running free stepped rest inductionHypothesis =>
      rw [unpaused_of_stepped stepped] at inductionHypothesis
      exact inductionHypothesis.cons more stepped

/-! ## A whole frame -/

theorem runFrame_of_healthy {machine : Machine} (healthy : machine.fault = none) :
    machine.runFrame = runUntil machine.config.cyclesPerFrame machine 0 ∧
      machine.frameCalls = callsUntil machine.config.cyclesPerFrame machine 0 := by
  have free : machine.isFrozen = false := by
    rw [isFrozen, healthy]
    rfl
  rw [frameCalls, runFrame, free]
  exact ⟨rfl, rfl⟩

theorem goes_runFrame {machine : Machine} (healthy : machine.fault = none) :
    Goes machine.config.cyclesPerFrame machine 0 machine.frameCalls machine.runFrame.1
      machine.runFrame.2 := by
  rcases runFrame_of_healthy healthy with ⟨frame, calls⟩
  rw [frame, calls]
  exact goes_runUntil _ machine 0

/-- A frame of a machine that an opcode has frozen does nothing. -/
theorem runFrame_cases (machine : Machine) :
    (machine.runFrame = (.ok .frozen, machine) ∧ machine.frameCalls = []) ∨
      machine.fault = none ∧
        Goes machine.config.cyclesPerFrame machine 0 machine.frameCalls machine.runFrame.1
          machine.runFrame.2 := by
  cases fault : machine.fault with
  | some failure =>
      left
      rw [runFrame, frameCalls, isFrozen, fault]
      exact ⟨rfl, rfl⟩
  | none => exact Or.inr ⟨rfl, goes_runFrame fault⟩

/-- A frame goes through states that the machine goes through anyway. -/
theorem frameCalls_eq (machine : Machine) :
    machine.frameCalls =
        (List.range machine.frameCalls.length).map machine.unpaused.afterSteps ∧
      machine.runFrame.2.unpaused = machine.unpaused.afterSteps machine.frameCalls.length := by
  rcases machine.runFrame_cases with ⟨outcome, nothing⟩ | ⟨-, goes⟩
  · rw [outcome, nothing]
    exact ⟨rfl, rfl⟩
  · exact ⟨goes.stretch.called, goes.stretch.reached⟩

/-- A frame of a machine amounts to a number of calls for an instruction. -/
structure FrameOf (machine : Machine) (count : Nat) : Prop where
  /-- A frame leaves behind what the calls do, and a note of where it paused. -/
  reached : machine.runFrame.2 =
    { machine.afterSteps count with pausedAt := machine.runFrame.2.pausedAt }
  /-- There is no call once the clock cycles are spent. -/
  within : ∀ earlier, earlier < count -> machine.spent earlier < machine.config.cyclesPerFrame
  /-- No call but the last one can fail. -/
  succeeds : ∀ earlier, earlier + 1 < count ->
    ∃ timing, (machine.afterSteps earlier).step.1 = .ok timing
  completed : machine.runFrame.1 = .ok .completed ↔
    machine.config.cyclesPerFrame <= machine.spent count
  interrupted : machine.runFrame.1 = .ok .stopped ∨
      (∃ address, machine.runFrame.1 = .ok (.breakpoint address)) ->
    machine.spent count < machine.config.cyclesPerFrame
  bounded : machine.spent count < machine.config.cyclesPerFrame + 40
  fails : ∀ failure, machine.runFrame.1 = .error failure ↔
    ∃ before, count = before + 1 ∧ (machine.afterSteps before).step.1 = .error failure

/-- The last call of a frame begins before the clock cycles are spent. -/
theorem spent_lt_of_within {machine : Machine} {count budget : Nat}
    (within : ∀ earlier, earlier < count -> machine.spent earlier < budget) :
    machine.spent count < budget + 40 := by
  cases count with
  | zero => exact Nat.add_pos_right budget (by decide)
  | succ count =>
      rw [spent_succ]
      exact Nat.add_lt_add_of_lt_of_le (within count (Nat.lt_succ_self count))
        (machine.afterSteps count).stepClocks_le

theorem frameOf_frameCalls {machine : Machine} (healthy : machine.fault = none) :
    machine.FrameOf machine.frameCalls.length := by
  rcases (goes_runFrame healthy).stretch with ⟨-, reached, within, succeeds, completed, fails⟩
  simp only [afterSteps_unpaused, spent_unpaused, step_unpaused, Nat.zero_add]
    at reached within succeeds completed fails
  refine ⟨?_, within, succeeds, completed, ?_, spent_lt_of_within within, fails⟩
  · exact congrArg (fun later => Machine.mk later.core later.config later.breakpoints
      machine.runFrame.2.pausedAt later.fault) reached
  · intro early
    apply Nat.lt_of_not_le
    intro enough
    have whole := completed.mpr enough
    rcases early with outcome | ⟨address, outcome⟩
    · rw [outcome] at whole
      cases whole
    · rw [outcome] at whole
      cases whole

end Machine

end Dmg
