import Dmg.Machine.Run
import Dmg.Proofs.Cpu.Control

/-!
# One turn of the machine

A turn is a step of the processor, the devices going on for the time it took,
and the look for requests behind it.  The definitions here name what a turn
decides: which operation it executes, in what state requests are looked for,
and whether one is dispatched.  Each turn that succeeds is then one of a few
cases, and the switches of the processor after it are read off those.
-/

namespace Dmg

namespace Wired

section Step

variable {Memory : Type} [Bus Memory]

/-- The operation that the next step executes, and the processor and its memory
when the opcode has been fetched. -/
def decoded? (wired : Wired Memory) : Option (Operation × Wired Memory) :=
  if wired.cpu.isIdle then none
  else
    let fetched := wired.fetchByte
    match Opcode.decode fetched.1 with
    | .operation operation => some (operation, fetched.2)
    | .extended =>
        let selector := fetched.2.fetchByte
        some (.decodeExtended selector.1, selector.2)
    | .undefined => none

/-- The operation that the next step executes. -/
def operation? (wired : Wired Memory) : Option Operation :=
  wired.decoded?.map Prod.fst

theorem decoded?_eq_none_of_isIdle {wired : Wired Memory} (idle : wired.cpu.isIdle = true) :
    wired.decoded? = none := by
  rw [decoded?, if_pos idle]

theorem control_of_decoded {wired fetched : Wired Memory} {operation : Operation}
    (decoded : wired.decoded? = some (operation, fetched)) :
    fetched.cpu.control = wired.cpu.control := by
  by_cases idle : wired.cpu.isIdle = true
  · rw [decoded?, if_pos idle] at decoded
    cases decoded
  · rw [decoded?, if_neg idle] at decoded
    cases same : Opcode.decode wired.fetchByte.1 with
    | operation operation =>
        simp only [same] at decoded
        cases decoded
        rfl
    | extended =>
        simp only [same] at decoded
        cases decoded
        rfl
    | undefined =>
        simp only [same] at decoded
        cases decoded

/-- A step that succeeds lets an idle cycle pass or performs the operation that
was decoded. -/
theorem step_cases {wired stepped : Wired Memory} {timing : Timing}
    (succeeded : wired.step = (.ok timing, stepped)) :
    (wired.cpu.isIdle = true ∧ timing = idleTiming ∧ stepped = wired.idle) ∨
      ∃ operation fetched, wired.decoded? = some (operation, fetched) ∧
        timing = ⟨operation.cost fetched.registers⟩ ∧ stepped = fetched.perform operation := by
  by_cases idle : wired.cpu.isIdle = true
  · rw [step, if_pos idle] at succeeded
    cases succeeded
    exact Or.inl ⟨idle, rfl, rfl⟩
  · rw [step, if_neg idle] at succeeded
    rw [decoded?, if_neg idle]
    right
    cases same : Opcode.decode wired.fetchByte.1 with
    | operation operation =>
        simp only [same] at succeeded ⊢
        cases succeeded
        exact ⟨operation, _, rfl, rfl, rfl⟩
    | extended =>
        simp only [same] at succeeded ⊢
        cases succeeded
        exact ⟨_, _, rfl, rfl, rfl⟩
    | undefined =>
        simp only [same] at succeeded
        cases succeeded

/-- An operation that was decoded is performed. -/
theorem step_of_decoded {wired fetched : Wired Memory} {operation : Operation}
    (decoded : wired.decoded? = some (operation, fetched)) :
    wired.step = (fetched.perform operation).succeed := by
  by_cases idle : wired.cpu.isIdle = true
  · rw [decoded?, if_pos idle] at decoded
    cases decoded
  · rw [decoded?, if_neg idle] at decoded
    rw [step, if_neg idle]
    cases same : Opcode.decode wired.fetchByte.1 with
    | operation operation =>
        simp only [same] at decoded ⊢
        cases decoded
        rfl
    | extended =>
        simp only [same] at decoded ⊢
        cases decoded
        rfl
    | undefined =>
        simp only [same] at decoded
        cases decoded

/-- A step without an operation lets an idle cycle pass, or fails where it is. -/
theorem step_cases_of_none {wired : Wired Memory} (none : wired.operation? = none) :
    (wired.cpu.isIdle = true ∧ wired.step = (.ok idleTiming, wired.idle)) ∨
      wired.cpu.isIdle = false ∧
        wired.step = (.error ⟨wired.fetchByte.1, wired.registers.pc⟩,
          wired.fetchByte.2.jump wired.registers.pc) := by
  by_cases idle : wired.cpu.isIdle = true
  · left
    rw [step, if_pos idle]
    exact ⟨idle, rfl⟩
  · right
    rw [operation?, Option.map_eq_none_iff, decoded?, if_neg idle] at none
    rw [step, if_neg idle]
    refine ⟨Bool.eq_false_iff.mpr idle, ?_⟩
    cases same : Opcode.decode wired.fetchByte.1 with
    | operation operation | extended =>
        simp only [same] at none
        cases none
    | undefined => simp only [same]

theorem enablePending_perform (wired : Wired Memory) (operation : Operation) :
    (wired.perform operation).cpu.enablePending = (operation == .enableInterrupts) := by
  have executed := enablePending_execute
    { wired with cpu := { wired.cpu with enablePending := false } } operation
  change (Wired.execute _ operation).cpu.enablePending = _
  rw [executed]
  cases operation <;> rfl

theorem ime_perform (wired : Wired Memory) (operation : Operation) :
    (wired.perform operation).cpu.ime = (operation == .reti ||
      (operation != .disableInterrupts && (wired.cpu.ime || wired.cpu.enablePending))) := by
  have executed := ime_execute
    { wired with cpu := { wired.cpu with enablePending := false } } operation
  change ((Wired.execute _ operation).cpu.ime || _) = _
  rw [executed]
  dsimp only
  generalize wired.cpu = cpu
  rcases cpu with ⟨registers, ime, halted, stopped, enablePending, timing⟩
  cases operation <;> cases ime <;> cases enablePending <;> rfl

end Step

end Wired

namespace InterruptControl

/-- The requests that are permitted. -/
def pending (control : InterruptControl) : UInt8 :=
  control.permissions &&& control.readRequests &&& Interrupt.allMask

end InterruptControl

namespace Wired

/-! ## Looking for requests -/

/-- The permitted requests that the processor finds. -/
def pending (wired : Wired Board) : UInt8 :=
  wired.memory.interrupts.pending

/-- The source that is dispatched when the processor looks for requests, and the
address of its handler. -/
def dispatched? (wired : Wired Board) : Option (Interrupt × UInt16) :=
  if wired.cpu.ime then Interrupt.first? wired.pending else none

/-- A processor that finds a permitted request no longer waits for one. -/
def endHalt (wired : Wired Board) : Wired Board :=
  { wired with cpu := { wired.cpu with halted := wired.cpu.halted && wired.pending == 0 } }

/-- Looking for requests is a dispatch, or else the end of a halt that there is a
request for. -/
theorem serviceInterrupts_eq (wired : Wired Board) :
    wired.serviceInterrupts =
      match wired.dispatched? with
      | some (source, vector) => (some dispatchTiming, wired.dispatch source vector)
      | none => (none, wired.endHalt) := by
  by_cases quiet : wired.pending = 0
  · have nothing : wired.dispatched? = none := by
      rw [dispatched?, quiet]
      cases wired.cpu.ime <;> rfl
    rw [nothing, endHalt, quiet]
    refine (if_pos quiet).trans ?_
    rcases wired with ⟨⟨registers, ime, halted, stopped, enablePending, timing⟩, memory⟩
    cases halted <;> rfl
  · refine (if_neg quiet).trans ?_
    split
    · next source vector permitted found =>
      have handled : wired.dispatched? = some (source, vector) := by
        rw [dispatched?]
        exact (if_pos permitted).trans found
      rw [handled]
      rfl
    · next other =>
      have none : wired.dispatched? = none := by
        rw [dispatched?]
        cases permitted : wired.cpu.ime with
        | false => rfl
        | true =>
            cases found : Interrupt.first? wired.pending with
            | none => rfl
            | some handled => exact False.elim (other handled.1 handled.2 permitted found)
      rw [none, endHalt, beq_false_of_ne quiet, Bool.and_false]
      rfl

/-! ## Turns -/

/-- The processor and its board when requests are looked for: the step is taken
and the devices have gone on for its time. -/
def atCheck (wired : Wired Board) : Wired Board :=
  match wired.step with
  | (.ok timing, stepped) => stepped.advance timing
  | (.error _, stepped) => stepped

/-- Whether the next turn ends with a dispatch. -/
def dispatches (wired : Wired Board) : Bool :=
  wired.atCheck.serviceInterrupts.1.isSome

theorem dispatches_eq (wired : Wired Board) :
    wired.dispatches = wired.atCheck.dispatched?.isSome := by
  rw [dispatches, serviceInterrupts_eq]
  cases wired.atCheck.dispatched? <;> rfl

/-- A turn that succeeds is a step and then a dispatch or none. -/
theorem instruction_cases {wired next : Wired Board} {total : Timing}
    (executed : wired.instruction = (.ok total, next)) :
    exists timing stepped, wired.step = (.ok timing, stepped) ∧
      wired.atCheck = stepped.advance timing ∧
      (wired.atCheck.dispatched? = none ∧ total = timing ∧ next = wired.atCheck.endHalt ∨
        exists source vector, wired.atCheck.dispatched? = some (source, vector) ∧
          total = timing + dispatchTiming ∧
          next = (wired.atCheck.dispatch source vector).advance dispatchTiming) := by
  unfold instruction at executed
  split at executed
  · cases executed
  · next timing stepped same =>
    have reached : wired.atCheck = stepped.advance timing := by
      rw [atCheck, same]
    cases executed
    refine ⟨timing, stepped, same, reached, ?_⟩
    rw [reached, settleInterrupts, serviceInterrupts_eq]
    cases found : (stepped.advance timing).dispatched? with
    | none => exact Or.inl ⟨rfl, rfl, rfl⟩
    | some handled => exact Or.inr ⟨handled.1, handled.2, rfl, rfl, rfl⟩

theorem cpu_atCheck {wired stepped : Wired Board} {timing : Timing}
    (succeeded : wired.step = (.ok timing, stepped)) :
    wired.atCheck.cpu = stepped.cpu := by
  rw [atCheck, succeeded]
  rfl

end Wired

/-- What a turn did. -/
structure Turn where
  /-- The operation that it executed, unless the processor waited. -/
  operation? : Option Operation
  /-- Whether it ended with a dispatch. -/
  dispatched : Bool
  deriving DecidableEq, Repr

namespace Machine

def turn (machine : Machine) : Turn :=
  ⟨machine.core.operation?, machine.core.dispatches⟩

theorem step_cases {machine next : Machine} {timing : Timing}
    (stepped : machine.step = (.ok timing, next)) :
    machine.fault = none ∧ machine.core.instruction = (.ok timing, next.core) ∧
      next = { machine with core := next.core } := by
  unfold step at stepped
  split at stepped
  · cases stepped
  · next healthy =>
    split at stepped
    · cases stepped
    · next executed =>
      cases stepped
      exact ⟨healthy, executed, rfl⟩

/-- Turns that succeed, one after the other. -/
inductive Run : Machine -> List Turn -> Machine -> Prop where
  | done (machine : Machine) : Run machine [] machine
  | turn {machine next last : Machine} {timing : Timing} {turns : List Turn}
      (stepped : machine.step = (.ok timing, next)) (rest : Run next turns last) :
      Run machine (machine.turn :: turns) last

/-- A number of turns, unless one of them fails. -/
def takeTurns (machine : Machine) : Nat -> Option (List Turn × Machine)
  | 0 => some ([], machine)
  | count + 1 =>
      match machine.step with
      | (.error _, _) => none
      | (.ok _, next) =>
          (next.takeTurns count).map fun taken => (machine.turn :: taken.1, taken.2)

theorem run_of_takeTurns {machine last : Machine} {turns : List Turn} {count : Nat}
    (taken : machine.takeTurns count = some (turns, last)) : Run machine turns last := by
  induction count generalizing machine turns with
  | zero =>
      cases taken
      exact .done _
  | succ count inductionHypothesis =>
      unfold takeTurns at taken
      split at taken
      · cases taken
      · next stepped =>
        rcases Option.map_eq_some_iff.mp taken with ⟨rest, later, same⟩
        cases same
        exact .turn stepped (inductionHypothesis later)

/-! ## The switches after a turn -/

/-- Whether interrupts are permitted when a turn looks for requests. -/
theorem ime_atCheck {machine next : Machine} {timing : Timing}
    (stepped : machine.step = (.ok timing, next)) :
    machine.core.atCheck.cpu.ime =
      match machine.turn.operation? with
      | none => machine.cpu.ime
      | some operation => operation == .reti ||
          (operation != .disableInterrupts && (machine.cpu.ime || machine.cpu.enablePending)) := by
  rcases step_cases stepped with ⟨-, executed, -⟩
  rcases Wired.instruction_cases executed with ⟨spent, taken, succeeded, -, -⟩
  rw [Wired.cpu_atCheck succeeded]
  rcases Wired.step_cases succeeded with ⟨idle, -, rfl⟩ | ⟨operation, fetched, decoded, -, rfl⟩
  · rw [turn, Wired.operation?, Wired.decoded?_eq_none_of_isIdle idle]
    rfl
  · rw [turn, Wired.operation?, decoded, Wired.ime_perform]
    have same := Wired.control_of_decoded decoded
    rw [show fetched.cpu.ime = machine.cpu.ime from (congrArg Cpu.ime same :),
      show fetched.cpu.enablePending = machine.cpu.enablePending from
        (congrArg Cpu.enablePending same :)]
    rfl

/-- A turn that dispatches found interrupts permitted. -/
theorem ime_of_dispatched {machine : Machine} (dispatched : machine.turn.dispatched = true) :
    machine.core.atCheck.cpu.ime = true := by
  change machine.core.dispatches = true at dispatched
  rw [Wired.dispatches_eq, Wired.dispatched?] at dispatched
  split at dispatched
  · next permitted => exact permitted
  · cases dispatched

/-- A dispatch takes the permission away, and nothing else in looking for
requests changes it. -/
theorem ime_next {machine next : Machine} {timing : Timing}
    (stepped : machine.step = (.ok timing, next)) :
    next.cpu.ime = (machine.core.atCheck.cpu.ime && !machine.turn.dispatched) := by
  rcases step_cases stepped with ⟨-, executed, -⟩
  rcases Wired.instruction_cases executed with ⟨spent, taken, -, -, outcome⟩
  change next.core.cpu.ime = (machine.core.atCheck.cpu.ime && !machine.core.dispatches)
  rw [Wired.dispatches_eq]
  rcases outcome with ⟨none, -, after⟩ | ⟨source, vector, some, -, after⟩
  · rw [none, after]
    exact (Bool.and_true _).symm
  · rw [some, after]
    exact (Bool.and_false _).symm

/-- Only a turn that executes an operation changes the latch of EI, and behind it the
latch is set only if the operation was EI. -/
theorem enablePending_next {machine next : Machine} {timing : Timing}
    (stepped : machine.step = (.ok timing, next)) :
    next.cpu.enablePending =
      match machine.turn.operation? with
      | none => machine.cpu.enablePending
      | some operation => operation == .enableInterrupts := by
  rcases step_cases stepped with ⟨-, executed, -⟩
  rcases Wired.instruction_cases executed with ⟨spent, taken, succeeded, -, outcome⟩
  have kept : next.core.cpu.enablePending = machine.core.atCheck.cpu.enablePending := by
    rcases outcome with ⟨-, -, after⟩ | ⟨source, vector, -, -, after⟩
    · rw [after]
      rfl
    · rw [after]
      rfl
  change next.core.cpu.enablePending = _
  rw [kept, Wired.cpu_atCheck succeeded]
  rcases Wired.step_cases succeeded with ⟨idle, -, rfl⟩ | ⟨operation, fetched, decoded, -, rfl⟩
  · rw [turn, Wired.operation?, Wired.decoded?_eq_none_of_isIdle idle]
    rfl
  · rw [turn, Wired.operation?, decoded, Wired.enablePending_perform]
    rfl

end Machine

end Dmg
