import Dmg.Proofs.Machine.Turn

/-!
# What may interrupt a handler

A dispatch takes the permission for interrupts away, so that a handler can work
undisturbed until it executes an operation that gives the permission back.  A
dispatch does not clear the latch of EI.  A handler that begins while EI is still
pending has interrupts permitted behind its first instruction, although neither it
nor anything it called executed EI or RETI.

The main result says exactly when that happens.  It starts from an arbitrary
machine, so it covers every state that a program or its owner can bring about.
-/

namespace Dmg

namespace Turn

/-- Whether the turn executed an operation that lets interrupts in again. -/
def allows (turn : Turn) : Bool :=
  turn.operation? == some .enableInterrupts || turn.operation? == some .reti

end Turn

namespace Machine

/-- From now on no interrupt is permitted or dispatched before a turn has
executed an operation that lets interrupts in. -/
def StaysMasked (machine : Machine) : Prop :=
  ∀ turns last, Run machine turns last →
    (last.cpu.ime = true ∨ ∃ turn ∈ turns, turn.dispatched = true) →
    ∃ turn ∈ turns, turn.allows = true

/-- EI is pending behind the next turn.  Either the turn executes EI, or the processor
was made to wait from outside while EI was pending. -/
def LeavesEiPending (machine : Machine) : Prop :=
  machine.turn.operation? = some .enableInterrupts ∨
    machine.turn.operation? = none ∧ machine.cpu.enablePending = true

/-- Interrupts are not permitted, and EI is not about to take effect: it is not
pending, or there is no operation to execute and no halt to end, or the next
operation is DI or lets interrupts in by itself. -/
def Masked (machine : Machine) : Prop :=
  machine.cpu.ime = false ∧
    (machine.cpu.enablePending = false ∨
      machine.turn.operation? = none ∧ (machine.cpu.isIdle = true → machine.cpu.stopped = true) ∨
      machine.turn.operation? = some .disableInterrupts ∨ machine.turn.allows = true)

/-! ## What one turn keeps -/

theorem enablePending_eq_true_iff {machine next : Machine} {timing : Timing}
    (stepped : machine.step = (.ok timing, next)) :
    next.cpu.enablePending = true ↔ machine.LeavesEiPending := by
  rw [enablePending_next stepped, LeavesEiPending]
  cases machine.turn.operation? with
  | none => simp
  | some operation => simp

theorem operation?_of_stopped {machine : Machine} (stopped : machine.cpu.stopped = true) :
    machine.turn.operation? = none := by
  have idle : machine.core.cpu.isIdle = true := by
    change (machine.core.cpu.halted || machine.cpu.stopped) = true
    rw [stopped, Bool.or_true]
  rw [turn, Wired.operation?, Wired.decoded?_eq_none_of_isIdle idle]
  rfl

theorem stopped_next {machine next : Machine} {timing : Timing}
    (stepped : machine.step = (.ok timing, next)) (stopped : machine.cpu.stopped = true) :
    next.cpu.stopped = true := by
  rcases step_cases stepped with ⟨-, executed, -⟩
  rcases Wired.instruction_cases executed with ⟨spent, taken, succeeded, -, outcome⟩
  have waiting := Wired.cpu_atCheck succeeded
  rcases Wired.step_cases succeeded with ⟨-, -, rfl⟩ | ⟨operation, fetched, decoded, -, -⟩
  · change next.core.cpu.stopped = true
    rcases outcome with ⟨-, -, after⟩ | ⟨source, vector, -, -, after⟩
    · rw [after]
      exact (congrArg Cpu.stopped waiting).trans stopped
    · rw [after]
      exact (congrArg Cpu.stopped waiting).trans stopped
  · have none := operation?_of_stopped stopped
    rw [turn, Wired.operation?, decoded] at none
    cases none

/-- A dispatch ends a halt, so a processor that still waits waits for someone
outside. -/
theorem stopped_of_dispatched {machine next : Machine} {timing : Timing}
    (stepped : machine.step = (.ok timing, next)) (dispatched : machine.turn.dispatched = true)
    (idle : next.cpu.isIdle = true) : next.cpu.stopped = true := by
  rcases step_cases stepped with ⟨-, executed, -⟩
  rcases Wired.instruction_cases executed with ⟨spent, taken, -, -, outcome⟩
  change machine.core.dispatches = true at dispatched
  rw [Wired.dispatches_eq] at dispatched
  rcases outcome with ⟨none, -, -⟩ | ⟨source, vector, -, -, after⟩
  · rw [none] at dispatched
    cases dispatched
  · have released : next.cpu.halted = false := by
      change next.core.cpu.halted = false
      rw [after]
      rfl
    rw [Cpu.isIdle, released, Bool.false_or] at idle
    exact idle

/-- A turn that executes no operation leaves a processor that waits waiting. -/
theorem isIdle_of_operation?_eq_none {machine next : Machine} {timing : Timing}
    (stepped : machine.step = (.ok timing, next)) (none : machine.turn.operation? = none) :
    machine.cpu.isIdle = true := by
  rcases step_cases stepped with ⟨-, executed, -⟩
  rcases Wired.instruction_cases executed with ⟨spent, taken, succeeded, -, -⟩
  rcases Wired.step_cases succeeded with ⟨idle, -, -⟩ | ⟨operation, fetched, decoded, -, -⟩
  · exact idle
  · rw [turn, Wired.operation?, decoded] at none
    cases none

/-- A turn without a permission does not dispatch. -/
theorem dispatched_of_ime_eq_false {machine : Machine}
    (masked : machine.core.atCheck.cpu.ime = false) : machine.turn.dispatched = false := by
  apply Bool.eq_false_iff.mpr
  intro dispatched
  rw [ime_of_dispatched dispatched] at masked
  cases masked

/-- DI clears the latch of EI as well. -/
theorem masked_of_withdrawal {machine next : Machine} {timing : Timing}
    (stepped : machine.step = (.ok timing, next))
    (withdraws : machine.turn.operation? = some .disableInterrupts) :
    next.Masked ∧ machine.turn.dispatched = false := by
  have forbidden : machine.core.atCheck.cpu.ime = false := by
    rw [ime_atCheck stepped, withdraws]
    rfl
  refine ⟨⟨?_, Or.inl ?_⟩, dispatched_of_ime_eq_false forbidden⟩
  · rw [ime_next stepped, forbidden, Bool.false_and]
  · rw [enablePending_next stepped, withdraws]
    rfl

/-- A turn of a masked machine dispatches nothing and leaves it masked, unless
it executes an operation that lets interrupts in. -/
theorem Masked.next {machine next : Machine} {timing : Timing} (masked : machine.Masked)
    (stepped : machine.step = (.ok timing, next)) (silent : machine.turn.allows = false) :
    next.Masked ∧ machine.turn.dispatched = false := by
  rcases masked with ⟨forbidden, notPending | ⟨none, waits⟩ | withdraws | allowed⟩
  · have unmade : machine.turn.operation? ≠ some .enableInterrupts ∧
        machine.turn.operation? ≠ some .reti := by
      rcases Bool.or_eq_false_iff.mp silent with ⟨noEnable, noReturn⟩
      exact ⟨ne_of_beq_false noEnable, ne_of_beq_false noReturn⟩
    have atCheck : machine.core.atCheck.cpu.ime = false := by
      rw [ime_atCheck stepped]
      cases executed : machine.turn.operation? with
      | none => exact forbidden
      | some operation =>
          have unreturned : (operation == .reti) = false :=
            beq_false_of_ne fun same => unmade.2 (executed.trans (congrArg some same))
          simp only [unreturned, forbidden, notPending, Bool.or_self, Bool.and_false]
    refine ⟨⟨?_, Or.inl ?_⟩, dispatched_of_ime_eq_false atCheck⟩
    · rw [ime_next stepped, atCheck, Bool.false_and]
    · apply Bool.eq_false_iff.mpr
      intro pending
      rcases (enablePending_eq_true_iff stepped).mp pending with made | ⟨-, still⟩
      · exact unmade.1 made
      · rw [notPending] at still
        cases still
  · have stays := stopped_next stepped (waits (isIdle_of_operation?_eq_none stepped none))
    have atCheck : machine.core.atCheck.cpu.ime = false := by
      rw [ime_atCheck stepped, none]
      exact forbidden
    refine ⟨⟨?_, Or.inr (Or.inl ⟨operation?_of_stopped stays, fun _ => stays⟩)⟩,
      dispatched_of_ime_eq_false atCheck⟩
    rw [ime_next stepped, atCheck, Bool.false_and]
  · exact masked_of_withdrawal stepped withdraws
  · rw [silent] at allowed
    cases allowed

/-! ## Whole runs -/

/-- A run of a masked machine either executes an operation that lets interrupts
in, or ends masked without a dispatch. -/
theorem Run.masked {machine last : Machine} {turns : List Turn} (run : Run machine turns last)
    (masked : machine.Masked) :
    (∃ turn ∈ turns, turn.allows = true) ∨
      last.Masked ∧ ∀ turn, turn ∈ turns → turn.dispatched = false := by
  induction run with
  | done machine => exact Or.inr ⟨masked, fun turn member => nomatch member⟩
  | @turn machine next last timing turns stepped rest inductionHypothesis =>
      cases allowed : machine.turn.allows with
      | true => exact Or.inl ⟨machine.turn, List.mem_cons_self, allowed⟩
      | false =>
          rcases masked.next stepped allowed with ⟨stays, undispatched⟩
          rcases inductionHypothesis stays with ⟨turn, member, later⟩ | ⟨ends, none⟩
          · exact Or.inl ⟨turn, List.mem_cons_of_mem _ member, later⟩
          · refine Or.inr ⟨ends, fun turn member => ?_⟩
            rcases List.mem_cons.mp member with same | listed
            · rw [same]
              exact undispatched
            · exact none turn listed

theorem Masked.staysMasked {machine : Machine} (masked : machine.Masked) :
    machine.StaysMasked := by
  intro turns last run disturbed
  rcases run.masked masked with allowed | ⟨ends, none⟩
  · exact allowed
  · rcases disturbed with permitted | ⟨turn, member, dispatched⟩
    · rw [ends.1] at permitted
      cases permitted
    · rw [none turn member] at dispatched
      cases dispatched

/-! ## When a handler stays undisturbed -/

/-- A machine that is about to execute an operation succeeds in it. -/
theorem step_of_operation {machine : Machine} {operation : Operation}
    (healthy : machine.fault = none) (upcoming : machine.turn.operation? = some operation) :
    ∃ timing next, machine.step = (.ok timing, next) := by
  rcases Option.map_eq_some_iff.mp upcoming with ⟨decoded, found, -⟩
  have taken := Wired.step_of_decoded found
  rw [step, healthy, Wired.instruction, taken]
  exact ⟨_, _, rfl⟩

/-- Behind a dispatch interrupts stay away until the program lets them in, except
in one case: EI is pending behind the turn that dispatched, and the handler begins
with an operation other than DI, EI and RETI. -/
theorem staysMasked_after_dispatch_iff {machine next : Machine} {timing : Timing}
    (stepped : machine.step = (.ok timing, next)) (dispatched : machine.turn.dispatched = true) :
    next.StaysMasked ↔
      ¬ (machine.LeavesEiPending ∧ ∃ operation, next.turn.operation? = some operation ∧
        operation ≠ .disableInterrupts ∧ operation ≠ .enableInterrupts ∧ operation ≠ .reti) := by
  have forbidden : next.cpu.ime = false := by
    rw [ime_next stepped, dispatched]
    exact Bool.and_false _
  constructor
  · rintro masked ⟨leaves, operation, upcoming, noDisable, noEnable, noReturn⟩
    have pending := (enablePending_eq_true_iff stepped).mpr leaves
    have healthy : next.fault = none := by
      rw [(step_cases stepped).2.2]
      exact (step_cases stepped).1
    rcases step_of_operation healthy upcoming with ⟨spent, after, again⟩
    have permitted : next.core.atCheck.cpu.ime = true := by
      rw [ime_atCheck again, upcoming]
      simp only [pending, Bool.or_true, Bool.and_true, bne_iff_ne, Bool.or_eq_true]
      exact Or.inr noDisable
    have disturbed : after.cpu.ime = true ∨
        ∃ turn ∈ [next.turn], turn.dispatched = true := by
      rw [ime_next again, permitted, Bool.true_and]
      cases nested : next.turn.dispatched with
      | false => exact Or.inl rfl
      | true => exact Or.inr ⟨next.turn, List.mem_singleton_self _, nested⟩
    rcases masked _ _ (.turn again (.done after)) disturbed with ⟨turn, member, allowed⟩
    rw [List.mem_singleton.mp member, Turn.allows, upcoming] at allowed
    rcases Bool.or_eq_true_iff.mp allowed with enabled | returned
    · exact noEnable (Option.some.inj (eq_of_beq enabled))
    · exact noReturn (Option.some.inj (eq_of_beq returned))
  · intro settled
    apply Masked.staysMasked
    refine ⟨forbidden, ?_⟩
    cases pending : next.cpu.enablePending with
    | false => exact Or.inl rfl
    | true =>
        right
        have leaves := (enablePending_eq_true_iff stepped).mp pending
        cases upcoming : next.turn.operation? with
        | none => exact Or.inl ⟨rfl, stopped_of_dispatched stepped dispatched⟩
        | some operation =>
            right
            by_cases withdraws : operation = .disableInterrupts
            · exact Or.inl (congrArg some withdraws)
            · right
              cases allowed : next.turn.allows with
              | true => rfl
              | false =>
                  rw [Turn.allows, upcoming] at allowed
                  rcases Bool.or_eq_false_iff.mp allowed with ⟨noEnable, noReturn⟩
                  exact False.elim (settled ⟨leaves, operation, upcoming, withdraws,
                    fun same => ne_of_beq_false noEnable (congrArg some same),
                    fun same => ne_of_beq_false noReturn (congrArg some same)⟩)

/-- A machine among operations that do nothing, with interrupts permitted and
two sources asking. -/
def interrupted : Machine :=
  ((new .standard).mapCpu fun cpu =>
    { cpu with ime := true, registers := { cpu.registers with pc := 0xC000 } }).mapBoard
      fun board => { board with interrupts := ⟨3, 3⟩ }

/-- EI is not pending behind a NOP, so the handler of the first source keeps the second
one out. -/
theorem staysMasked_after_nop :
    ∃ timing next, interrupted.step = (.ok timing, next) ∧
      interrupted.turn = ⟨some .nop, true⟩ ∧ next.StaysMasked := by
  have plain : interrupted.turn = ⟨some .nop, true⟩ := by
    decide +kernel
  rcases step_of_operation rfl (congrArg Turn.operation? plain) with ⟨timing, next, stepped⟩
  refine ⟨timing, next, stepped, plain, ?_⟩
  apply (staysMasked_after_dispatch_iff stepped (congrArg Turn.dispatched plain)).mpr
  rintro ⟨made | ⟨none, -⟩, -⟩
  · rw [plain] at made
    cases made
  · rw [plain] at none
    cases none

/-- A start-up image that begins with a program and goes on with operations that
do nothing. -/
def startImage (program : List UInt8) : ByteArray :=
  ⟨(program ++ List.replicate (256 - program.length) 0).toArray⟩

/-- A machine that has just been started with a program. -/
def startedWith (program : List UInt8) : Machine :=
  match (new .standard).loadBoot (startImage program) with
  | .ok started => started
  | .error _ => new .standard

theorem loadBoot_startImage {program : List UInt8} (short : (startImage program).size = 256) :
    (new .standard).loadBoot (startImage program) = .ok (startedWith program) := by
  have accepted : ∃ started, (new .standard).loadBoot (startImage program) = .ok started := by
    rw [loadBoot, BootImage.ofBytes, if_pos short]
    exact ⟨_, rfl⟩
  rcases accepted with ⟨started, same⟩
  rw [startedWith, same]

/-- Request and permit the first two sources, then execute EI twice. -/
def enableTwice : List UInt8 :=
  [0x31, 0x00, 0xD0, 0x3E, 0x03, 0xE0, 0x0F, 0xE0, 0xFF, 0xFB, 0xFB]

/-- A handler can be interrupted before it allows it.  The second EI is executed while
the first one takes effect, so its turn dispatches and EI is pending behind it.  The
handler begins with a NOP, and the turn of this dispatches again. -/
theorem dispatches_twice_without_allowing :
    ∃ started last, (new .standard).loadBoot (startImage enableTwice) = .ok started ∧
      Run started [⟨some (.loadWord .sp), false⟩, ⟨some (.loadByte .a), false⟩,
        ⟨some .storeHigh, false⟩, ⟨some .storeHigh, false⟩, ⟨some .enableInterrupts, false⟩,
        ⟨some .enableInterrupts, true⟩, ⟨some .nop, true⟩] last := by
  have taken : ((startedWith enableTwice).takeTurns 7).map Prod.fst =
      some [⟨some (.loadWord .sp), false⟩, ⟨some (.loadByte .a), false⟩,
        ⟨some .storeHigh, false⟩, ⟨some .storeHigh, false⟩, ⟨some .enableInterrupts, false⟩,
        ⟨some .enableInterrupts, true⟩, ⟨some .nop, true⟩] := by
    decide +kernel
  rcases Option.map_eq_some_iff.mp taken with ⟨⟨turns, last⟩, found, same⟩
  exact ⟨startedWith enableTwice, last, loadBoot_startImage (by decide +kernel),
    same ▸ run_of_takeTurns found⟩

end Machine

end Dmg
