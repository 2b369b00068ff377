import Dmg.Proofs.Machine.History

/-!
# Breakpoints

A frame does not pass an instruction at a breakpoint before it has paused there,
and each pause lets one instruction pass.  The machine remembers a pause that has
not been used yet, so at no moment of its history have more instructions passed
at an address than there were pauses.

A pause is not repeated either.  Unless the owner moves the machine elsewhere,
the next frame begins with the instruction that the last one paused at.
-/

namespace Dmg

namespace Call

/-- Whether a call leaves a machine where it paused. -/
def isHarmless : Call -> Bool
  | .addBreakpoint _ | .removeBreakpoint _ | .setButton _ _ | .resume => true
  | _ => false

end Call

namespace Event

/-- Whether a frame goes on to the instruction at an address although there is a
breakpoint. -/
def passes (address : UInt16) : Event -> Bool
  | .calls machine =>
      machine.cpu.registers.pc == address && !machine.cpu.halted &&
        machine.breakpoints.contains address
  | .pauses _ => false

def pausesAt (address : UInt16) : Event -> Bool
  | .calls _ => false
  | .pauses place => place == address

end Event

/-! ## Pauses and what they are used for -/

/-- Some events never use more pauses than there are, of which some are from
before and some are left for later. -/
structure Balanced (address : UInt16) (before : Nat) (events : List Event) (after : Nat) :
    Prop where
  always : ∀ moment, (events.take moment).countP (Event.passes address) <=
    before + (events.take moment).countP (Event.pausesAt address)
  whole : events.countP (Event.passes address) + after <=
    before + events.countP (Event.pausesAt address)

namespace Balanced

variable {address : UInt16} {before between after : Nat}

theorem nil (less : after <= before) : Balanced address before [] after where
  always := by
    intro moment
    rw [List.take_nil]
    exact Nat.zero_le _
  whole := by
    rw [List.countP_nil, Nat.zero_add]
    exact less

theorem single {event : Event}
    (enough : [event].countP (Event.passes address) + after <=
      before + [event].countP (Event.pausesAt address)) :
    Balanced address before [event] after where
  always := by
    intro moment
    cases moment with
    | zero => exact Nat.zero_le _
    | succ moment =>
        rw [List.take_succ_cons, List.take_nil]
        exact Nat.le_trans (Nat.le_add_right _ _) enough
  whole := enough

theorem append {early late : List Event} (first : Balanced address before early between)
    (second : Balanced address between late after) :
    Balanced address before (early ++ late) after where
  always := by
    intro moment
    rw [List.take_append, List.countP_append, List.countP_append]
    rcases Nat.le_total moment early.length with within | beyond
    · rw [Nat.sub_eq_zero_of_le within]
      exact first.always moment
    · rw [List.take_of_length_le beyond]
      have whole := first.whole
      have always := second.always (moment - early.length)
      omega
  whole := by
    rw [List.countP_append, List.countP_append]
    have early := first.whole
    have late := second.whole
    omega

end Balanced

namespace Machine

/-- The pauses at an address that are not used yet. -/
def credit (machine : Machine) (address : UInt16) : Nat :=
  if machine.pausedAt = some address then 1 else 0

theorem credit_of_stepped {machine next : Machine} {answer : Except DecodeError Timing}
    (stepped : machine.unpaused.step = (answer, next)) (address : UInt16) :
    next.credit address = 0 := by
  rw [← unpaused_of_stepped stepped]
  rfl

/-- A frame that does not pause at a breakpoint has done so before. -/
theorem countP_passes_le_credit {machine : Machine} (free : machine.isAtBreakpoint = false)
    (address : UInt16) :
    [Event.calls machine.unpaused].countP (Event.passes address) <= machine.credit address := by
  rw [List.countP_singleton]
  split
  · next passes =>
    rcases Bool.and_eq_true_iff.mp passes with ⟨start, contained⟩
    rcases Bool.and_eq_true_iff.mp start with ⟨here, awake⟩
    have place : machine.cpu.registers.pc = address := eq_of_beq here
    rw [isAtBreakpoint, place] at free
    change (_ && !machine.unpaused.cpu.halted && machine.unpaused.breakpoints.contains address)
      = false at free
    rw [awake, contained, Bool.and_true, Bool.and_true] at free
    have noted : machine.pausedAt = some address := by
      simpa using free
    exact Nat.le_of_eq (if_pos noted).symm
  · exact Nat.zero_le _

theorem balanced_call {machine : Machine} (free : machine.isAtBreakpoint = false)
    (address : UInt16) :
    Balanced address (machine.credit address) [.calls machine.unpaused] 0 :=
  .single (countP_passes_le_credit free address)

/-- A frame that pauses has one more instruction to let pass. -/
theorem balanced_pause (machine : Machine) (address : UInt16) :
    Balanced address (machine.credit address) [.pauses machine.cpu.registers.pc]
      (Machine.credit { machine with pausedAt := some machine.cpu.registers.pc } address) := by
  apply Balanced.single
  simp only [List.countP_singleton, Event.passes, Event.pausesAt, credit, Option.some.injEq,
    beq_iff_eq, Bool.false_eq_true, if_false, Nat.zero_add]
  exact Nat.le_add_left _ _

/-- The first call of a frame uses the pause that was noted, and leaves none to the calls
after it. -/
theorem Goes.balanced {budget elapsed : Nat} {machine last : Machine} {calls : List Machine}
    {outcome : Except DecodeError FrameOutcome}
    (goes : Goes budget machine elapsed calls outcome last) (address : UInt16) :
    Balanced address (machine.credit address)
      (calls.map .calls ++ FrameOutcome.pauses outcome) (last.credit address) := by
  induction goes with
  | completed => exact .nil (Nat.le_refl _)
  | stopped => exact .nil (Nat.le_refl _)
  | paused => exact balanced_pause _ address
  | failed more running free stepped =>
      rw [credit_of_stepped stepped]
      exact balanced_call free address
  | called more running free stepped rest inductionHypothesis =>
      rw [credit_of_stepped stepped] at inductionHypothesis
      exact (balanced_call free address).append inductionHypothesis

/-- Only a frame makes a new note of a pause. -/
theorem pausedAt_apply (machine : Machine) {call : Call} (quiet : call ≠ .runFrame) :
    (machine.apply call).pausedAt = none ∨ (machine.apply call).pausedAt = machine.pausedAt := by
  cases call with
  | runFrame => exact absurd rfl quiet
  | step =>
      rw [apply, step_eq_steered]
      exact Or.inr rfl
  | addBreakpoint address =>
      rw [apply, addBreakpoint_eq_steered]
      exact Or.inr rfl
  | removeBreakpoint | setButton | resume => exact Or.inr rfl
  | reset => exact Or.inl rfl
  | load image =>
      rw [apply, load]
      cases Cartridge.ofImage image with
      | error refusal => exact Or.inr rfl
      | ok cartridge => exact Or.inl rfl
  | loadBoot image =>
      rw [apply, loadBoot]
      cases BootImage.ofBytes image with
      | error refusal => exact Or.inr rfl
      | ok boot => exact Or.inl rfl

theorem credit_le_of_pausedAt {first second : Machine}
    (kept : second.pausedAt = none ∨ second.pausedAt = first.pausedAt) (address : UInt16) :
    second.credit address <= first.credit address := by
  unfold credit
  rcases kept with none | same
  · rw [none]
    exact Nat.zero_le _
  · apply Nat.le_of_eq
    rw [same]

theorem balanced_events (machine : Machine) (call : Call) (address : UInt16) :
    Balanced address (machine.credit address) (machine.events call)
      ((machine.apply call).credit address) := by
  cases call with
  | runFrame =>
      rcases machine.runFrame_cases with ⟨outcome, nothing⟩ | ⟨-, goes⟩
      · rw [events, apply, outcome, nothing]
        exact .nil (Nat.le_refl _)
      · exact goes.balanced address
  | _ =>
      apply Balanced.nil
      apply credit_le_of_pausedAt
      apply pausedAt_apply
      intro same
      cases same

theorem balanced_history (machine : Machine) (calls : List Call) (address : UInt16) :
    Balanced address (machine.credit address) (machine.history calls)
      ((calls.foldl apply machine).credit address) := by
  induction calls generalizing machine with
  | nil => exact .nil (Nat.le_refl _)
  | cons call calls inductionHypothesis =>
      exact (machine.balanced_events call address).append (inductionHypothesis (machine.apply call))

/-! ## A machine that has paused -/

/-- A machine that has paused at an address and can go on. -/
structure PausedAt (machine : Machine) (address : UInt16) : Prop where
  healthy : machine.fault = none
  awake : machine.cpu.isIdle = false
  there : machine.cpu.registers.pc = address
  noted : machine.pausedAt = some address
  hasTime : 0 < machine.config.cyclesPerFrame

/-- The next frame of a machine begins with the instruction at an address. -/
structure Proceeds (machine : Machine) (address : UInt16) : Prop where
  there : machine.cpu.registers.pc = address
  first : ∃ later, machine.frameCalls = machine.unpaused :: later
  /-- The frame leaves the machine that this instruction and those behind it lead to. -/
  leaves : machine.runFrame.2.unpaused =
    machine.unpaused.step.2.afterSteps (machine.frameCalls.length - 1)
  /-- The instruction is executed, unless its opcode has no meaning. -/
  executes : (∃ operation timing, machine.core.operation? = some operation ∧
      machine.unpaused.step.1 = .ok timing) ∨
    ∃ code, machine.runFrame.1 = .error ⟨code, address⟩

theorem Goes.pausedAt {budget elapsed : Nat} {machine last : Machine} {calls : List Machine}
    {outcome : Except DecodeError FrameOutcome}
    (goes : Goes budget machine elapsed calls outcome last) {address : UInt16}
    (pauses : outcome = .ok (.breakpoint address)) (healthy : machine.fault = none)
    (enough : budget <= machine.config.cyclesPerFrame) : last.PausedAt address := by
  induction goes with
  | completed | stopped | failed => cases pauses
  | @paused machine elapsed more running pausing =>
      cases pauses
      rcases Bool.and_eq_true_iff.mp pausing with ⟨start, -⟩
      rcases Bool.and_eq_true_iff.mp start with ⟨-, awake⟩
      have fetches : machine.cpu.halted = false := by
        simpa using awake
      have idle : machine.cpu.isIdle = false := by
        rw [Cpu.isIdle, fetches, running]
        rfl
      exact ⟨healthy, idle, rfl, rfl, Nat.lt_of_lt_of_le (Nat.zero_lt_of_lt more) enough⟩
  | called more running free stepped rest inductionHypothesis =>
      rcases step_cases stepped with ⟨-, -, next⟩
      apply inductionHypothesis pauses
      · rw [next]
        exact healthy
      · rw [next]
        exact enough

theorem pausedAt_of_runFrame {machine : Machine} {address : UInt16}
    (pauses : machine.runFrame.1 = .ok (.breakpoint address)) :
    machine.runFrame.2.PausedAt address := by
  rcases machine.runFrame_cases with ⟨outcome, -⟩ | ⟨healthy, goes⟩
  · rw [outcome] at pauses
    cases pauses
  · exact goes.pausedAt pauses healthy (Nat.le_refl _)

theorem PausedAt.apply {machine : Machine} {address : UInt16} (paused : machine.PausedAt address)
    {call : Call} (harmless : call.isHarmless = true) : (machine.apply call).PausedAt address := by
  rcases paused with ⟨healthy, awake, there, noted, hasTime⟩
  cases call with
  | addBreakpoint place =>
      rw [Machine.apply, addBreakpoint_eq_steered]
      exact ⟨healthy, awake, there, noted, hasTime⟩
  | removeBreakpoint place => exact ⟨healthy, awake, there, noted, hasTime⟩
  | setButton button held => exact ⟨healthy, awake, there, noted, hasTime⟩
  | resume => exact ⟨rfl, rfl, there, noted, hasTime⟩
  | _ => cases harmless

theorem PausedAt.applyAll {machine : Machine} {address : UInt16}
    (paused : machine.PausedAt address) {calls : List Call}
    (harmless : ∀ call ∈ calls, call.isHarmless = true) :
    (calls.foldl Machine.apply machine).PausedAt address := by
  induction calls generalizing machine with
  | nil => exact paused
  | cons call calls inductionHypothesis =>
      rcases List.forall_mem_cons.mp harmless with ⟨first, others⟩
      exact inductionHypothesis (paused.apply first) others

theorem PausedAt.proceeds {machine : Machine} {address : UInt16}
    (paused : machine.PausedAt address) : machine.Proceeds address := by
  rcases paused with ⟨healthy, awake, there, noted, hasTime⟩
  have running : machine.cpu.stopped = false := (Bool.or_eq_false_iff.mp awake).2
  have free : machine.isAtBreakpoint = false := by
    rw [isAtBreakpoint, noted, there, bne_self_eq_false]
    rfl
  rcases stepped : machine.unpaused.step with ⟨answer, next⟩
  rcases runFrame_of_healthy healthy with ⟨frame, calls⟩
  rw [runUntil_of_step hasTime running free stepped] at frame
  rw [callsUntil_of_step hasTime running free stepped] at calls
  have leaves : machine.runFrame.2.unpaused =
      machine.unpaused.step.2.afterSteps (machine.frameCalls.length - 1) := by
    rw [machine.frameCalls_eq.2, calls]
    rfl
  refine ⟨there, ⟨_, calls⟩, leaves, ?_⟩
  cases answer with
  | error failure =>
      right
      have unharmed : machine.unpaused.fault = none := healthy
      have place : failure.address = address :=
        (address_of_step_eq_error unharmed stepped).trans there
      refine ⟨failure.code, ?_⟩
      rw [frame, ← place]
  | ok timing =>
      left
      rcases step_cases stepped with ⟨-, executed, -⟩
      rcases Wired.instruction_cases executed with ⟨spent, taken, succeeded, -, -⟩
      rcases Wired.step_cases succeeded with ⟨idle, -, -⟩ | ⟨operation, fetched, decoded, -, -⟩
      · exact absurd (idle.symm.trans awake) (by decide)
      · refine ⟨operation, timing, ?_, congrArg Prod.fst stepped⟩
        exact congrArg (Option.map Prod.fst) decoded

/-- A breakpoint is neither missed nor met twice.  At no moment have frames passed
it more often than they paused there, and after a pause the next frame begins
with the instruction at the breakpoint.  The instructions of a frame are those that
lead to the machine that it leaves. -/
theorem breakpoints_hold :
    (∀ (config : Config) (calls : List Call) (moment : Nat) (address : UInt16),
      (((new config).history calls).take moment).countP (Event.passes address) <=
        (((new config).history calls).take moment).countP (Event.pausesAt address)) ∧
    (∀ machine : Machine,
      machine.frameCalls =
          (List.range machine.frameCalls.length).map machine.unpaused.afterSteps ∧
        machine.runFrame.2.unpaused = machine.unpaused.afterSteps machine.frameCalls.length) ∧
    ∀ (machine : Machine) (address : UInt16) (between : List Call),
      machine.runFrame.1 = .ok (.breakpoint address) ->
      (∀ call ∈ between, call.isHarmless = true) ->
      (between.foldl apply machine.runFrame.2).Proceeds address := by
  refine ⟨?_, frameCalls_eq, ?_⟩
  · intro config calls moment address
    have balanced := (new config).balanced_history calls address
    have always := balanced.always moment
    rw [show (new config).credit address = 0 from rfl, Nat.zero_add] at always
    exact always
  · intro machine address between pauses harmless
    exact ((pausedAt_of_runFrame pauses).applyAll harmless).proceeds

/-- A machine with a breakpoint where its program starts. -/
def watched : Machine :=
  ((new .standard).addBreakpoint 0x0100).2

/-- The first frame pauses at the start, and the second one leaves it whatever
the owner does to the breakpoints and the buttons meanwhile. -/
theorem watched_proceeds :
    watched.runFrame.1 = .ok (.breakpoint 0x0100) ∧
      Proceeds ([.setButton .start true, .removeBreakpoint 0x0100, .addBreakpoint 0x0100,
        .resume].foldl apply watched.runFrame.2) 0x0100 := by
  have pauses : watched.runFrame.1 = .ok (.breakpoint 0x0100) := by
    have healthy : watched.fault = none := rfl
    have running : watched.cpu.stopped = false := rfl
    have pausing : watched.isAtBreakpoint = true := by decide
    have hasTime : 0 < watched.config.cyclesPerFrame := by decide
    rw [(runFrame_of_healthy healthy).1, runUntil, if_pos hasTime, running, pausing]
    rfl
  exact ⟨pauses, breakpoints_hold.2.2 watched 0x0100 _ pauses (by decide)⟩

end Machine

end Dmg
