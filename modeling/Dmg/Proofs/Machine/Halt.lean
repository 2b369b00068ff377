import Dmg.Proofs.Board.Spans
import Dmg.Proofs.Machine.Service
import Dmg.Proofs.Machine.Steps

/-!
# The end of a halt

A processor that waits for a request looks for one after every machine cycle
that it lets pass.  As long as there is none, nothing but time goes by.  The
first look that finds one ends the halt: with a dispatch, if interrupts are
permitted and the request has a handler, and otherwise where the program was
left.  So a request that could end a halt is never left lying beside it.
-/

namespace Dmg

open Interrupt

namespace Board

/-- Two boards agree in everything that keeps bytes for a program. -/
structure SameMemories (first second : Board) : Prop where
  cartridge : second.cartridge = first.cartridge
  workMemory : second.workMemory = first.workMemory
  highMemory : second.highMemory = first.highMemory
  video : first.video.SameMemory second.video

theorem SameMemories.refl (board : Board) : board.SameMemories board :=
  ⟨rfl, rfl, rfl, rfl, rfl⟩

theorem SameMemories.trans {first second third : Board} (early : first.SameMemories second)
    (late : second.SameMemories third) : first.SameMemories third :=
  ⟨late.cartridge.trans early.cartridge, late.workMemory.trans early.workMemory,
    late.highMemory.trans early.highMemory, late.video.1.trans early.video.1,
    late.video.2.trans early.video.2⟩

theorem sameMemories_advance (board : Board) (timing : Timing) :
    board.SameMemories (board.advance timing) :=
  ⟨rfl, rfl, rfl, Video.SameMemory.step board.video timing.clocks⟩

end Board

namespace Wired

/-- What the next step of the processor reads and writes. -/
def stepAccesses {Memory : Type} [Bus Memory] (wired : Wired Memory) : List Access :=
  wired.recorded.step.2.memory.accesses

/-- A processor that has let some machine cycles pass. -/
def idleFor (wired : Wired Board) : Nat -> Wired Board
  | 0 => wired
  | count + 1 => wired.idle.advance ⟨4 * (count + 1)⟩

theorem idleFor_succ (wired : Wired Board) (count : Nat) :
    (wired.idleFor count).idle.advance idleTiming = wired.idleFor (count + 1) := by
  cases count with
  | zero => rfl
  | succ count =>
      have whole : 4 ∣ (Timing.mk (4 * (count + 1))).clocks := ⟨count + 1, rfl⟩
      have together := wired.memory.advance_add whole idleTiming
      change (⟨_, (wired.memory.advance ⟨4 * (count + 1)⟩).advance idleTiming⟩ : Wired Board) = _
      rw [together]
      rfl

theorem step_of_isIdle {Memory : Type} [Bus Memory] {wired : Wired Memory}
    (idle : wired.cpu.isIdle = true) : wired.step = (.ok idleTiming, wired.idle) := by
  rw [step, if_pos idle]
  rfl

theorem atCheck_of_isIdle {wired : Wired Board} (idle : wired.cpu.isIdle = true) :
    wired.atCheck = wired.idle.advance idleTiming := by
  rw [atCheck, step_of_isIdle idle]

/-- A processor that waits does not reach for its memory. -/
theorem stepAccesses_of_isIdle {Memory : Type} [Bus Memory] {wired : Wired Memory}
    (idle : wired.cpu.isIdle = true) : wired.stepAccesses = [] := by
  have waiting : wired.recorded.cpu.isIdle = true := idle
  rw [stepAccesses, step_of_isIdle waiting]
  rfl

/-- Where no request is permitted, looking for one changes nothing. -/
theorem settleInterrupts_of_quiet {wired : Wired Board} (quiet : wired.pending = 0)
    (timing : Timing) : wired.settleInterrupts timing = (timing, wired) := by
  have service : wired.serviceInterrupts = (none, wired) := if_pos quiet
  rw [settleInterrupts, service]

theorem settleInterrupts_of_none {wired : Wired Board} (none : wired.dispatched? = none)
    (timing : Timing) : wired.settleInterrupts timing = (timing, wired.endHalt) := by
  rw [settleInterrupts, serviceInterrupts_eq, none]

theorem settleInterrupts_of_some {wired : Wired Board} {source : Interrupt} {vector : UInt16}
    (some : wired.dispatched? = some (source, vector)) (timing : Timing) :
    wired.settleInterrupts timing =
      (timing + dispatchTiming, (wired.dispatch source vector).advance dispatchTiming) := by
  rw [settleInterrupts, serviceInterrupts_eq, some]

end Wired

namespace Machine

/-- Whether a machine waits for a request and for nothing else. -/
structure Waits (machine : Machine) : Prop where
  healthy : machine.fault = none
  halted : machine.cpu.halted = true
  running : machine.cpu.stopped = false

/-- Nothing but time has passed between one machine and the other. -/
structure Rested (first later : Machine) (count : Nat) : Prop where
  whole : later = { first with core := first.core.idleFor count }
  registers : later.cpu.registers = first.cpu.registers
  memories : first.board.SameMemories later.board
  video : 0 < count -> later.board.video = (first.board.video.step (4 * count)).1
  timer : 0 < count -> later.board.timer = (first.board.timer.step count).1

/-- A call for an instruction has ended a halt.  The interrupted program is the
one that the machine halted in. -/
structure Woken (first called : Machine) : Prop where
  registers : called.core.atCheck.registers = first.cpu.registers
  released : called.step.2.cpu.halted = false
  awake : called.step.2.cpu.isIdle = false
  dispatched : first.cpu.ime = true ->
    (∃ source : Interrupt, source ≠ .serial ∧ source.RaisedIn called.core.atCheck.pending) ->
    called.step.1 = .ok (Wired.idleTiming + Wired.dispatchTiming) ∧
      ∃ source vector,
        Wired.Dispatched called.core.atCheck called.step.2.core source vector
  resumed : ¬ (first.cpu.ime = true ∧
      ∃ source : Interrupt, source ≠ .serial ∧ source.RaisedIn called.core.atCheck.pending) ->
    called.step.1 = .ok Wired.idleTiming ∧
      called.step.2.cpu.registers = first.cpu.registers ∧
      called.step.2.board = called.core.atCheck.memory

/-! ## One call -/

/-- A call that succeeds leaves no halt beside a permitted request. -/
theorem not_halted_of_pending {machine next : Machine} {timing : Timing}
    (stepped : machine.step = (.ok timing, next)) :
    ¬ (next.cpu.halted = true ∧ next.core.pending ≠ 0) := by
  rintro ⟨halted, pending⟩
  change next.core.cpu.halted = true at halted
  rcases step_cases stepped with ⟨-, executed, -⟩
  rcases Wired.instruction_cases executed with ⟨spent, taken, -, -, outcome⟩
  rcases outcome with ⟨-, -, after⟩ | ⟨source, vector, -, -, after⟩
  · rw [after] at halted pending
    rcases Bool.and_eq_true_iff.mp halted with ⟨-, quiet⟩
    exact pending (eq_of_beq quiet)
  · rw [after] at halted
    exact Bool.false_ne_true halted

/-- A call for an instruction of a processor that waits is an idle cycle, and a
look for requests behind it. -/
theorem step_of_isIdle {machine : Machine} (healthy : machine.fault = none)
    (idle : machine.core.cpu.isIdle = true) :
    machine.step =
      (.ok (machine.core.atCheck.settleInterrupts Wired.idleTiming).1,
        { machine with
          core := (machine.core.atCheck.settleInterrupts Wired.idleTiming).2 }) := by
  rw [step, healthy, Wired.instruction, Wired.step_of_isIdle idle,
    Wired.atCheck_of_isIdle idle]

theorem Waits.isIdle {machine : Machine} (waits : machine.Waits) :
    machine.core.cpu.isIdle = true := by
  have halted : machine.core.cpu.halted = true := waits.halted
  rw [Cpu.isIdle, halted, Bool.true_or]

theorem Waits.step_eq {machine : Machine} (waits : machine.Waits) :
    machine.step =
      (.ok (machine.core.atCheck.settleInterrupts Wired.idleTiming).1,
        { machine with
          core := (machine.core.atCheck.settleInterrupts Wired.idleTiming).2 }) :=
  step_of_isIdle waits.healthy waits.isIdle

theorem Waits.step_of_quiet {machine : Machine} (waits : machine.Waits)
    (quiet : machine.core.atCheck.pending = 0) :
    machine.step = (.ok Wired.idleTiming, { machine with core := machine.core.atCheck }) := by
  rw [waits.step_eq, Wired.settleInterrupts_of_quiet quiet]

/-! ## A halt of any length -/

theorem Waits.idleFor {machine : Machine} (waits : machine.Waits) (count : Nat) :
    Waits { machine with core := machine.core.idleFor count } := by
  cases count with
  | zero => exact waits
  | succ count => exact ⟨waits.healthy, waits.halted, waits.running⟩

theorem Waits.afterSteps {machine : Machine} (waits : machine.Waits) {count : Nat}
    (quiet : ∀ earlier, earlier < count ->
      (machine.afterSteps earlier).core.atCheck.pending = 0) :
    machine.afterSteps count = { machine with core := machine.core.idleFor count } := by
  induction count with
  | zero => rfl
  | succ count inductionHypothesis =>
      have before := inductionHypothesis fun earlier less =>
        quiet earlier (Nat.lt_succ_of_lt less)
      have still := waits.idleFor count
      have nothing := quiet count (Nat.lt_succ_self count)
      rw [before] at nothing
      rw [afterSteps_succ, before, still.step_of_quiet nothing,
        Wired.atCheck_of_isIdle still.isIdle, Wired.idleFor_succ]

theorem Waits.rested {machine : Machine} (waits : machine.Waits) {count : Nat}
    (quiet : ∀ earlier, earlier < count ->
      (machine.afterSteps earlier).core.atCheck.pending = 0) :
    machine.Rested (machine.afterSteps count) count := by
  rw [waits.afterSteps quiet]
  cases count with
  | zero =>
      exact ⟨rfl, rfl, .refl machine.board, fun positive => absurd positive (by decide),
        fun positive => absurd positive (by decide)⟩
  | succ count =>
      refine ⟨rfl, rfl, machine.board.sameMemories_advance _, fun _ => rfl, fun _ => ?_⟩
      have cycles : (Timing.mk (4 * (count + 1))).machine = count + 1 :=
        Nat.mul_div_cancel_left (count + 1) (by decide)
      change (machine.board.timer.step (Timing.mk (4 * (count + 1))).machine).1 = _
      rw [cycles]

/-- The call that finds a request ends the halt. -/
theorem Waits.woken {machine : Machine} (waits : machine.Waits)
    (pending : machine.core.atCheck.pending ≠ 0) : machine.Woken machine := by
  have check := Wired.atCheck_of_isIdle waits.isIdle
  have registers : machine.core.atCheck.registers = machine.cpu.registers := by
    rw [check]
    rfl
  have ime : machine.core.atCheck.cpu.ime = machine.cpu.ime := by
    rw [check]
    rfl
  have running : machine.core.atCheck.cpu.stopped = false := by
    rw [check]
    exact waits.running
  cases found : machine.core.atCheck.dispatched? with
  | none =>
      have step := waits.step_eq
      rw [Wired.settleInterrupts_of_none found] at step
      have released : machine.step.2.cpu.halted = false := by
        rw [step]
        change (machine.core.atCheck.cpu.halted && machine.core.atCheck.pending == 0) = false
        rw [beq_false_of_ne pending, Bool.and_false]
      refine ⟨registers, released, ?_, fun permitted waiting => ?_, fun _ => ?_⟩
      · rw [Cpu.isIdle, released, Bool.false_or, step]
        exact running
      · have some := Interrupt.isSome_first?_iff.mpr waiting
        rw [Wired.dispatched?, ime, permitted, if_pos rfl] at found
        rw [found] at some
        cases some
      · rw [step]
        exact ⟨rfl, registers, rfl⟩
  | some handled =>
      rcases handled with ⟨source, vector⟩
      have step := waits.step_eq
      rw [Wired.settleInterrupts_of_some found] at step
      have released : machine.step.2.cpu.halted = false := by
        rw [step]
        rfl
      refine ⟨registers, released, ?_, fun _ _ => ?_, fun other => ?_⟩
      · rw [Cpu.isIdle, released, Bool.false_or, step]
        exact running
      · rw [step]
        exact ⟨rfl, source, vector, Wired.dispatched_of_dispatched? found⟩
      · refine absurd ?_ other
        rw [Wired.dispatched?, ime] at found
        split at found
        · next permitted =>
          refine ⟨permitted, Interrupt.isSome_first?_iff.mp ?_⟩
          rw [found]
          rfl
        · cases found

/-- It does not matter which state of the halt the program is compared with. -/
theorem Woken.of_same {first later called : Machine} (woken : later.Woken called)
    (registers : later.cpu.registers = first.cpu.registers)
    (ime : later.cpu.ime = first.cpu.ime) : first.Woken called := by
  refine ⟨woken.registers.trans registers, woken.released, woken.awake, ?_, ?_⟩
  · rw [← ime]
    exact woken.dispatched
  · rw [← ime, ← registers]
    exact woken.resumed

theorem Waits.woken_afterSteps {machine : Machine} (waits : machine.Waits) {count : Nat}
    (quiet : ∀ earlier, earlier < count ->
      (machine.afterSteps earlier).core.atCheck.pending = 0)
    (pending : (machine.afterSteps count).core.atCheck.pending ≠ 0) :
    machine.Woken (machine.afterSteps count) := by
  rw [waits.afterSteps quiet] at pending ⊢
  apply ((waits.idleFor count).woken pending).of_same
  · cases count <;> rfl
  · cases count <;> rfl

/-- A call within the halt succeeds, and the processor does not reach for its
memory. -/
theorem Waits.call {machine : Machine} (waits : machine.Waits) {count : Nat}
    (quiet : ∀ earlier, earlier < count ->
      (machine.afterSteps earlier).core.atCheck.pending = 0)
    (nothing : (machine.afterSteps count).core.atCheck.pending = 0) :
    (machine.afterSteps count).step.1 = .ok Wired.idleTiming ∧
      (machine.afterSteps count).core.stepAccesses = [] := by
  have still := waits.idleFor count
  rw [waits.afterSteps quiet] at nothing ⊢
  rw [still.step_of_quiet nothing]
  exact ⟨rfl, Wired.stepAccesses_of_isIdle still.isIdle⟩

/-- A halt is never left behind by the request that ends it.  Until a look finds
one, the program fetches nothing and keeps what it has while the devices go on;
the look that finds one lets the program go on, or its handler. -/
theorem halt_ends_with_request :
    (∀ (machine next : Machine) (timing : Timing), machine.step = (.ok timing, next) ->
      ¬ (next.cpu.halted = true ∧ next.core.pending ≠ 0)) ∧
    ∀ machine : Machine, machine.Waits -> ∀ count,
      (∀ earlier, earlier < count -> (machine.afterSteps earlier).core.atCheck.pending = 0) ->
      (∀ earlier, earlier < count ->
        (machine.afterSteps earlier).step.1 = .ok Wired.idleTiming ∧
          (machine.afterSteps earlier).core.stepAccesses = []) ∧
      machine.Rested (machine.afterSteps count) count ∧
      ((machine.afterSteps count).core.atCheck.pending ≠ 0 ->
        machine.Woken (machine.afterSteps count)) := by
  constructor
  · intro machine next timing stepped
    exact not_halted_of_pending stepped
  · intro machine waits count quiet
    refine ⟨?_, waits.rested quiet, waits.woken_afterSteps quiet⟩
    intro earlier less
    exact waits.call (fun first lower => quiet first (Nat.lt_trans lower less))
      (quiet earlier less)

/-- A machine that waits for its timer, which is two counts away from asking. -/
def sleeper : Machine :=
  ((new .standard).mapCpu fun cpu =>
    { cpu with
      ime := true
      halted := true
      registers := { cpu.registers with pc := 0xC000 } }).mapBoard fun board =>
    { board with
      timer := ⟨0, 0xFE, 0xAB, 0x05, 0, 0⟩
      interrupts := ⟨0, 0x04⟩ }

/-- The first call finds nothing, and the second one the timer's request. -/
theorem sleeper_wakes :
    sleeper.Waits ∧ sleeper.Rested (sleeper.afterSteps 1) 1 ∧
      ¬ ((sleeper.afterSteps 1).cpu.halted = true ∧ (sleeper.afterSteps 1).core.pending ≠ 0) ∧
      (sleeper.afterSteps 1).step.1 = .ok ⟨20⟩ ∧
      (sleeper.afterSteps 2).cpu.isIdle = false ∧
      ∃ source vector, Wired.Dispatched (sleeper.afterSteps 1).core.atCheck
        (sleeper.afterSteps 2).core source vector := by
  have waits : sleeper.Waits := ⟨rfl, rfl, rfl⟩
  have quiet : (sleeper.afterSteps 0).core.atCheck.pending = 0 := by
    decide +kernel
  have pending : (sleeper.afterSteps 1).core.atCheck.pending ≠ 0 := by
    decide +kernel
  have asks : timer.RaisedIn (sleeper.afterSteps 1).core.atCheck.pending := by
    decide +kernel
  rcases halt_ends_with_request.2 sleeper waits 1
      (fun earlier less => Nat.lt_one_iff.mp less ▸ quiet) with ⟨-, rested, wakes⟩
  have woken := wakes pending
  have first : sleeper.step = (.ok Wired.idleTiming, sleeper.afterSteps 1) := by
    rw [afterSteps, waits.step_of_quiet quiet]
    rfl
  have waiting := halt_ends_with_request.1 sleeper (sleeper.afterSteps 1) Wired.idleTiming first
  rcases woken.dispatched rfl ⟨timer, by decide, asks⟩ with ⟨answer, handled⟩
  exact ⟨waits, rested, waiting, answer, woken.awake, handled⟩

end Machine

end Dmg
