import Dmg.Proofs.Cpu.Branch
import Dmg.Proofs.Board.Spans
import Dmg.Proofs.Machine.Reset

/-!
# The two clocks

The video unit counts clock cycles and the timer counts machine cycles.  Each
instruction hands its time to both, and the machine cycles are found by a division
that drops what is left over.  Nothing is ever left over, because every time that
the processor reports is a number of whole machine cycles.  So the two devices have
been handed the same time whatever the machine has done, and it is the time that
the calls for instructions have answered.

To speak of what the devices have been handed, a machine is given a meter.  The
meter changes nothing that the machine does.
-/

namespace Dmg

/-! ## The times of the tables -/

namespace Operation

theorem four_dvd_cycles (operation : Operation) : 4 ∣ operation.cycles := by
  unfold cycles operandCycles
  split <;> (try split) <;> decide

theorem four_dvd_surcharge (operation : Operation) : 4 ∣ operation.surcharge := by
  unfold surcharge
  split <;> decide

theorem four_dvd_cost (operation : Operation) (registers : Registers) :
    4 ∣ operation.cost registers := by
  rw [cost_eq]
  split
  · exact Nat.dvd_add operation.four_dvd_cycles operation.four_dvd_surcharge
  · exact operation.four_dvd_cycles

end Operation

namespace Wired

/-- The clock cycles of the next step, as the tables give them: those of an idle
machine cycle if the processor waits, and otherwise those of the operation, with
the surcharge of a conditional branch that is taken. -/
def stepCost {Memory : Type} [Bus Memory] (wired : Wired Memory) : Nat :=
  match wired.operation? with
  | none => 4
  | some operation =>
      operation.cycles + if operation.isTaken wired.registers then operation.surcharge else 0

section Step

variable {Memory : Type} [Bus Memory] {wired next : Wired Memory} {timing : Timing}

theorem clocks_of_step (stepped : wired.step = (.ok timing, next)) :
    timing.clocks = wired.stepCost := by
  rw [stepCost, operation?]
  rcases step_cases stepped with ⟨idle, rfl, -⟩ | ⟨operation, fetched, decoded, rfl, -⟩
  · rw [decoded?_eq_none_of_isIdle idle]
    rfl
  · have flags : fetched.registers.f = wired.registers.f := by
      rw [registers_of_decoded decoded]
    rw [decoded]
    dsimp only [Option.map_some]
    rw [Operation.cost_eq, Operation.isTaken_congr flags]

/-- A step takes whole machine cycles. -/
theorem four_dvd_of_step (stepped : wired.step = (.ok timing, next)) : 4 ∣ timing.clocks := by
  rcases step_cases stepped with ⟨-, rfl, -⟩ | ⟨operation, fetched, -, rfl, -⟩
  · exact ⟨1, rfl⟩
  · exact operation.four_dvd_cost fetched.registers

end Step

/-- A dispatch takes sixteen clock cycles, and nothing else adds to the time of a
step. -/
theorem clocks_of_instruction {wired next : Wired Board} {total : Timing}
    (executed : wired.instruction = (.ok total, next)) :
    total.clocks = wired.stepCost + if wired.dispatches then 16 else 0 := by
  rcases instruction_cases executed with ⟨spent, stepped, succeeded, -, outcome⟩
  rw [dispatches_eq, ← clocks_of_step succeeded]
  rcases outcome with ⟨none, rfl, -⟩ | ⟨source, vector, some, rfl, -⟩
  · rw [none]
    rfl
  · rw [some]
    rfl

end Wired

theorem Timing.four_mul_machine {timing : Timing} (whole : 4 ∣ timing.clocks) :
    4 * timing.machine = timing.clocks :=
  Nat.mul_div_cancel' whole

/-- The time that a call for an instruction answers. -/
structure Machine.Timed (machine : Machine) (timing : Timing) : Prop where
  whole : 4 ∣ timing.clocks
  least : 4 <= timing.clocks
  most : timing.clocks <= 40
  /-- No fraction of a machine cycle is dropped. -/
  machineCycles : 4 * timing.machine = timing.clocks
  /-- The step of the processor by itself. -/
  step : ∃ stepped, machine.core.step = (.ok ⟨machine.core.stepCost⟩, stepped)
  stepWhole : 4 ∣ machine.core.stepCost
  stepLeast : 4 <= machine.core.stepCost
  stepMost : machine.core.stepCost <= 24
  total : timing.clocks = machine.core.stepCost + if machine.core.dispatches then 16 else 0

theorem Machine.timed_of_step {machine next : Machine} {timing : Timing}
    (stepped : machine.step = (.ok timing, next)) : machine.Timed timing := by
  rcases step_cases stepped with ⟨-, executed, -⟩
  rcases Wired.instruction_cases executed with ⟨spent, after, succeeded, -, -⟩
  have total := Wired.clocks_of_instruction executed
  have cost := Wired.clocks_of_step succeeded
  have stepWhole := Wired.four_dvd_of_step succeeded
  have positive := Wired.step_clocks_pos succeeded
  have stepMost := Wired.step_clocks_le succeeded
  rw [cost] at stepWhole positive stepMost
  have stepLeast : 4 <= machine.core.stepCost := Nat.le_of_dvd positive stepWhole
  have whole : 4 ∣ timing.clocks := by
    rw [total]
    split
    · exact Nat.dvd_add stepWhole ⟨4, rfl⟩
    · exact stepWhole
  refine ⟨whole, ?_, Wired.instruction_clocks_le executed, Timing.four_mul_machine whole,
    ⟨after, ?_⟩, stepWhole, stepLeast, stepMost, total⟩
  · rw [total]
    exact Nat.le_trans stepLeast (Nat.le_add_right _ _)
  · rw [succeeded, ← cost]

/-! ## Machines with a meter -/

/-- What has been handed on since the power came on. -/
@[ext] structure Meter where
  /-- Clock cycles that the video unit was handed. -/
  video : Nat
  /-- Machine cycles that the timer was handed. -/
  timer : Nat
  /-- Clock cycles that calls for an instruction have answered. -/
  answered : Nat

namespace Meter

def zero : Meter := ⟨0, 0, 0⟩

/-- Both devices were handed the time that was answered. -/
structure Agrees (meter : Meter) : Prop where
  timer : 4 * meter.timer = meter.video
  answered : meter.video = meter.answered

theorem agrees_zero : zero.Agrees :=
  ⟨rfl, rfl⟩

end Meter

/-- A machine with a meter, which adds up the time that each of its devices is given and
the time that is answered. -/
@[ext] structure Metered where
  machine : Machine
  meter : Meter

namespace Metered

def new (config : Config) : Metered :=
  ⟨.new config, .zero⟩

/-- The same meter on another processor and board. -/
def withCore (metered : Metered) (core : Wired Board) : Metered :=
  { metered with machine := { metered.machine with core := core } }

def advanceVideo (metered : Metered) (cycles : Nat) : Metered where
  machine := metered.machine.mapBoard fun board => board.advanceVideo cycles
  meter := { metered.meter with video := metered.meter.video + cycles }

def advanceTimer (metered : Metered) (cycles : Nat) : Metered where
  machine := metered.machine.mapBoard fun board => board.advanceTimer cycles
  meter := { metered.meter with timer := metered.meter.timer + cycles }

def advance (metered : Metered) (timing : Timing) : Metered :=
  (metered.advanceVideo timing.clocks).advanceTimer timing.machine

def settleInterrupts (metered : Metered) (timing : Timing) : Timing × Metered :=
  match metered.machine.core.serviceInterrupts with
  | (none, checked) => (timing, metered.withCore checked)
  | (some dispatch, checked) => (timing + dispatch, (metered.withCore checked).advance dispatch)

def instruction (metered : Metered) : Except DecodeError Timing × Metered :=
  match metered.machine.core.step with
  | (.error failure, stepped) => (.error failure, metered.withCore stepped)
  | (.ok timing, stepped) =>
      let settled := ((metered.withCore stepped).advance timing).settleInterrupts timing
      (.ok settled.1, settled.2)

/-- Note the time that a call answers. -/
def answer (metered : Metered) (timing : Timing) : Metered :=
  { metered with
    meter := { metered.meter with answered := metered.meter.answered + timing.clocks } }

def step (metered : Metered) : Except DecodeError Timing × Metered :=
  match metered.machine.fault with
  | some failure => (.error failure, metered)
  | none =>
      match metered.instruction with
      | (.error failure, next) =>
          (.error failure, { next with machine := { next.machine with fault := some failure } })
      | (.ok timing, next) => (.ok timing, next.answer timing)

/-! ### The meter changes nothing -/

section Machine

variable (metered : Metered)

theorem machine_advance (timing : Timing) :
    (metered.advance timing).machine =
      { metered.machine with core := metered.machine.core.advance timing } := by
  rw [Wired.advance, Board.advance_eq_video_timer]
  rfl

theorem settleInterrupts_machine (timing : Timing) :
    (metered.settleInterrupts timing).1 = (metered.machine.core.settleInterrupts timing).1 ∧
      (metered.settleInterrupts timing).2.machine =
        { metered.machine with core := (metered.machine.core.settleInterrupts timing).2 } := by
  rcases served : metered.machine.core.serviceInterrupts with ⟨dispatch, checked⟩
  rw [settleInterrupts, Wired.settleInterrupts, served]
  cases dispatch with
  | none => exact ⟨rfl, rfl⟩
  | some dispatch => exact ⟨rfl, machine_advance _ dispatch⟩

theorem instruction_machine :
    metered.instruction.1 = metered.machine.core.instruction.1 ∧
      metered.instruction.2.machine =
        { metered.machine with core := metered.machine.core.instruction.2 } := by
  rcases stepped : metered.machine.core.step with ⟨answer, core⟩
  rw [instruction, Wired.instruction, stepped]
  cases answer with
  | error failure => exact ⟨rfl, rfl⟩
  | ok timing =>
      have settled := ((metered.withCore core).advance timing).settleInterrupts_machine timing
      rw [machine_advance] at settled
      exact ⟨congrArg Except.ok settled.1, settled.2⟩

/-- A call for an instruction is the same with a meter and without. -/
theorem step_machine : metered.machine.step = (metered.step.1, metered.step.2.machine) := by
  rcases metered.instruction_machine with ⟨answer, machine⟩
  rcases executed : metered.instruction with ⟨result, next⟩
  rw [executed] at answer machine
  have plain : metered.machine.core.instruction = (result, metered.machine.core.instruction.2) :=
    Prod.ext answer.symm rfl
  rw [step, Machine.step, plain, executed]
  cases fault : metered.machine.fault with
  | some failure => rfl
  | none =>
      cases result with
      | error failure =>
          dsimp only at machine ⊢
          rw [machine]
      | ok timing =>
          change (Except.ok timing, _) = (Except.ok timing, next.machine)
          rw [machine]
          dsimp only
          rw [fault]

end Machine

/-! ### What a call hands on -/

/-- Some time has been handed on since an earlier reading of the meter, and has not
been answered yet. -/
structure Handed (early late : Meter) (timing : Timing) : Prop where
  whole : 4 ∣ timing.clocks
  video : late.video = early.video + timing.clocks
  timer : late.timer = early.timer + timing.machine
  answered : late.answered = early.answered

theorem Handed.dispatch {early late : Meter} {timing : Timing} (handed : Handed early late timing) :
    Handed early
      { late with
        video := late.video + Wired.dispatchTiming.clocks
        timer := late.timer + Wired.dispatchTiming.machine }
      (timing + Wired.dispatchTiming) where
  whole := Nat.dvd_add handed.whole ⟨4, rfl⟩
  video := by
    rw [handed.video, Timing.clocks_add, Nat.add_assoc]
  timer := by
    rw [handed.timer, Timing.machine_add handed.whole, Nat.add_assoc]
  answered := handed.answered

theorem Handed.settleInterrupts {early : Meter} {metered : Metered} {timing : Timing}
    (handed : Handed early metered.meter timing) :
    Handed early (metered.settleInterrupts timing).2.meter
      (metered.settleInterrupts timing).1 := by
  rw [Metered.settleInterrupts, Wired.serviceInterrupts_eq]
  cases metered.machine.core.dispatched? with
  | none => exact handed
  | some handled => exact handed.dispatch

/-- What an instruction hands to the devices is the time that it answers. -/
theorem handed_of_instruction {metered next : Metered} {timing : Timing}
    (executed : metered.instruction = (.ok timing, next)) :
    Handed metered.meter next.meter timing := by
  rcases stepped : metered.machine.core.step with ⟨answer, core⟩
  rw [instruction, stepped] at executed
  cases answer with
  | error failure => cases executed
  | ok spent =>
      have handed : Handed metered.meter ((metered.withCore core).advance spent).meter spent :=
        ⟨Wired.four_dvd_of_step stepped, rfl, rfl, rfl⟩
      cases executed
      exact handed.settleInterrupts

/-- An instruction that fails hands on nothing. -/
theorem meter_of_instruction_eq_error {metered next : Metered} {failure : DecodeError}
    (failed : metered.instruction = (.error failure, next)) : next.meter = metered.meter := by
  rcases stepped : metered.machine.core.step with ⟨answer, core⟩
  rw [instruction, stepped] at failed
  cases answer with
  | error cause =>
      cases failed
      rfl
  | ok spent => cases failed

theorem Handed.agrees {early late : Meter} {timing : Timing} (handed : Handed early late timing)
    (agrees : early.Agrees) :
    Meter.Agrees { late with answered := late.answered + timing.clocks } where
  timer := by
    rw [handed.timer, handed.video, Nat.mul_add, agrees.timer,
      Timing.four_mul_machine handed.whole]
  answered := by
    rw [handed.video, handed.answered, agrees.answered]

/-- A call for an instruction keeps the clocks together, whether it succeeds, fails
or dispatches an interrupt. -/
theorem agrees_step {metered : Metered} (agrees : metered.meter.Agrees) :
    metered.step.2.meter.Agrees := by
  rw [step]
  split
  · exact agrees
  · split
    · next failure next failed =>
      have same : next.meter = metered.meter := meter_of_instruction_eq_error failed
      change next.meter.Agrees
      rw [same]
      exact agrees
    · next timing next executed => exact (handed_of_instruction executed).agrees agrees

/-! ### Frames -/

/-- The machine as a frame calls it for an instruction. -/
def unpaused (metered : Metered) : Metered :=
  { metered with machine := metered.machine.unpaused }

def runUntil (budget : Nat) (metered : Metered) (elapsed : Nat) :
    Except DecodeError FrameOutcome × Metered :=
  if elapsed < budget then
    if metered.machine.cpu.stopped then (.ok .stopped, metered)
    else if metered.machine.isAtBreakpoint then
      (.ok (.breakpoint metered.machine.cpu.registers.pc),
        { metered with
          machine := { metered.machine with
            pausedAt := some metered.machine.cpu.registers.pc } })
    else
      match stepped : metered.unpaused.step with
      | (.error failure, next) => (.error failure, next)
      | (.ok timing, next) =>
          have plain := metered.unpaused.step_machine
          have := Machine.step_clocks_pos (stepped ▸ plain)
          runUntil budget next (elapsed + timing.clocks)
  else (.ok .completed, metered)
termination_by budget - elapsed
decreasing_by omega

/-- A frame is the same with a meter and without. -/
theorem runUntil_machine (budget : Nat) (metered : Metered) (elapsed : Nat) :
    Machine.runUntil budget metered.machine elapsed =
      ((metered.runUntil budget elapsed).1, (metered.runUntil budget elapsed).2.machine) := by
  fun_induction runUntil budget metered elapsed with
  | case1 metered elapsed more stopped => rw [Machine.runUntil, if_pos more, if_pos stopped]
  | case2 metered elapsed more running pauses =>
      rw [Machine.runUntil, if_pos more, if_neg running, if_pos pauses]
  | case3 metered elapsed more running free failure next stepped =>
      have plain := metered.unpaused.step_machine
      rw [stepped] at plain
      exact Machine.runUntil_of_step more (Bool.eq_false_iff.mpr running)
        (Bool.eq_false_iff.mpr free) plain
  | case4 metered elapsed more running free timing next stepped plain positive
      inductionHypothesis =>
      rw [stepped] at plain
      rw [← inductionHypothesis]
      exact Machine.runUntil_of_step more (Bool.eq_false_iff.mpr running)
        (Bool.eq_false_iff.mpr free) plain
  | case5 metered elapsed spent => rw [Machine.runUntil, if_neg spent]

theorem agrees_runUntil {budget : Nat} {metered : Metered} {elapsed : Nat}
    (agrees : metered.meter.Agrees) : (metered.runUntil budget elapsed).2.meter.Agrees := by
  fun_induction runUntil budget metered elapsed with
  | case1 | case2 | case5 => exact agrees
  | case3 metered elapsed more running free failure next stepped =>
      have unpaused : metered.unpaused.meter.Agrees := agrees
      have kept := agrees_step unpaused
      rw [stepped] at kept
      exact kept
  | case4 metered elapsed more running free timing next stepped plain positive
      inductionHypothesis =>
      have unpaused : metered.unpaused.meter.Agrees := agrees
      have kept := agrees_step unpaused
      rw [stepped] at kept
      exact inductionHypothesis kept

def runFrame (metered : Metered) : Except DecodeError FrameOutcome × Metered :=
  if metered.machine.isFrozen then (.ok .frozen, metered)
  else metered.runUntil metered.machine.config.cyclesPerFrame 0

theorem runFrame_machine (metered : Metered) :
    metered.machine.runFrame = (metered.runFrame.1, metered.runFrame.2.machine) := by
  rw [runFrame, Machine.runFrame]
  split
  · rfl
  · exact runUntil_machine _ metered 0

theorem agrees_runFrame {metered : Metered} (agrees : metered.meter.Agrees) :
    metered.runFrame.2.meter.Agrees := by
  rw [runFrame]
  split
  · exact agrees
  · exact agrees_runUntil agrees

/-! ### Histories -/

/-- The machine after a call.  A meter starts over when the power comes on. -/
def apply (metered : Metered) (call : Call) : Metered :=
  match call with
  | .runFrame => metered.runFrame.2
  | .step => metered.step.2
  | .reset => ⟨metered.machine.reset, .zero⟩
  | .load image =>
      match metered.machine.load image with
      | .ok loaded => ⟨loaded.2, .zero⟩
      | .error _ => metered
  | .loadBoot image =>
      match metered.machine.loadBoot image with
      | .ok loaded => ⟨loaded, .zero⟩
      | .error _ => metered
  | call => { metered with machine := metered.machine.apply call }

def act (metered : Metered) : HostAction -> Metered
  | .call call => metered.apply call
  | .setCpu cpu => { metered with machine := metered.machine.mapCpu fun _ => cpu }

theorem apply_machine (metered : Metered) (call : Call) :
    (metered.apply call).machine = metered.machine.apply call := by
  cases call with
  | runFrame => exact (congrArg Prod.snd metered.runFrame_machine).symm
  | step => exact (congrArg Prod.snd metered.step_machine).symm
  | load image =>
      rw [apply, Machine.apply]
      cases metered.machine.load image <;> rfl
  | loadBoot image =>
      rw [apply, Machine.apply]
      cases metered.machine.loadBoot image <;> rfl
  | _ => rfl

theorem act_machine (metered : Metered) (action : HostAction) :
    (metered.act action).machine = metered.machine.act action := by
  cases action with
  | call call => exact metered.apply_machine call
  | setCpu cpu => rfl

theorem agrees_act {metered : Metered} (agrees : metered.meter.Agrees) (action : HostAction) :
    (metered.act action).meter.Agrees := by
  cases action with
  | setCpu cpu => exact agrees
  | call call =>
      rw [act]
      cases call with
      | runFrame => exact agrees_runFrame agrees
      | step => exact agrees_step agrees
      | reset => exact Meter.agrees_zero
      | load image =>
          rw [apply]
          split
          · exact Meter.agrees_zero
          · exact agrees
      | loadBoot image =>
          rw [apply]
          split
          · exact Meter.agrees_zero
          · exact agrees
      | _ => exact agrees

theorem foldl_act_machine (metered : Metered) (actions : List HostAction) :
    (actions.foldl act metered).machine = actions.foldl Machine.act metered.machine := by
  induction actions generalizing metered with
  | nil => rfl
  | cons action actions inductionHypothesis =>
      rw [List.foldl_cons, inductionHypothesis, act_machine, List.foldl_cons]

theorem agrees_foldl_act {metered : Metered} (agrees : metered.meter.Agrees)
    (actions : List HostAction) : (actions.foldl act metered).meter.Agrees := by
  induction actions generalizing metered with
  | nil => exact agrees
  | cons action actions inductionHypothesis => exact inductionHypothesis (agrees_act agrees action)

end Metered

/-- Every call for an instruction that succeeds answers whole machine cycles, as the
tables have them.  So whatever has happened to a machine, four times the machine
cycles that its timer was handed since the power came on are the clock cycles that
its video unit was handed, and both are what the calls have answered. -/
theorem clocks_agree :
    (∀ (machine next : Machine) (timing : Timing),
      machine.step = (.ok timing, next) -> machine.Timed timing) ∧
    ∀ (config : Config) (actions : List HostAction),
      let metered := actions.foldl Metered.act (Metered.new config)
      metered.machine = actions.foldl Machine.act (Machine.new config) ∧
        4 * metered.meter.timer = metered.meter.video ∧
        metered.meter.video = metered.meter.answered := by
  refine ⟨fun machine next timing stepped => Machine.timed_of_step stepped, ?_⟩
  intro config actions metered
  have agrees : metered.meter.Agrees := Metered.agrees_foldl_act Meter.agrees_zero actions
  exact ⟨Metered.foldl_act_machine (Metered.new config) actions, agrees.timer, agrees.answered⟩

/-- Without a cartridge the first instruction calls a fixed address, which takes
four machine cycles. -/
theorem open_bus_restart_is_timed :
    (Machine.new .standard).step = (.ok ⟨16⟩, (Machine.new .standard).step.2) ∧
      (Machine.new .standard).Timed ⟨16⟩ := by
  have answer : (Machine.new .standard).step.1 = .ok ⟨16⟩ := by decide +kernel
  have stepped : (Machine.new .standard).step = (.ok ⟨16⟩, (Machine.new .standard).step.2) :=
    Prod.ext answer rfl
  exact ⟨stepped, clocks_agree.1 _ _ _ stepped⟩

end Dmg
