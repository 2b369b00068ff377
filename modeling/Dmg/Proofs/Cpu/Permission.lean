import Dmg.Proofs.Board.Ram
import Dmg.Proofs.Cpu.Latches

/-!
# When EI takes effect

EI permits interrupts behind the instruction that follows it, unless that instruction is DI.
DI forbids them at once, and RETI permits them at once.  No other instruction changes whether
interrupts are permitted.

So two instructions decide together what is permitted behind the second one.  What goes on
between them makes no difference: steps that fail, memory that somebody repairs, a processor
that waits and is woken.
-/

namespace Dmg

/-- What can happen to a processor on its bus: it takes a step, somebody changes the memory,
or somebody ends its waiting. -/
inductive Occurrence (Memory : Type) where
  | step
  | change (memory : Memory)
  | wake

/-- An operation that was executed, and whether interrupts are permitted behind it. -/
structure Execution where
  operation : Operation
  permitted : Bool
  deriving DecidableEq, Repr

namespace Operation

/-- Whether interrupts are permitted behind an operation.  Given are the operation that was
executed before it, if there is one, and whether they were permitted then. -/
def permits (operation : Operation) (previous? : Option Operation) (permitted : Bool) : Bool :=
  if operation = .disableInterrupts then false
  else if operation = .reti ∨ previous? = some .enableInterrupts then true
  else permitted

/-- What the processor makes of its switches is what the rule says. -/
theorem permits_eq (operation : Operation) (previous? : Option Operation) (permitted : Bool) :
    operation.permits previous? permitted =
      (operation == .reti || (operation != .disableInterrupts &&
        (permitted || previous? == some .enableInterrupts))) := by
  rw [permits]
  by_cases refuses : operation = .disableInterrupts
  · rw [if_pos refuses, refuses]
    rfl
  · rw [if_neg refuses, bne_iff_ne.mpr refuses, Bool.true_and]
    by_cases returns : operation = .reti
    · rw [if_pos (Or.inl returns), beq_iff_eq.mpr returns, Bool.true_or]
    · rw [beq_false_of_ne returns, Bool.false_or]
      by_cases pending : previous? = some .enableInterrupts
      · rw [if_pos (Or.inr pending), beq_iff_eq.mpr pending, Bool.or_true]
      · rw [if_neg (not_or.mpr ⟨returns, pending⟩), beq_false_of_ne pending, Bool.or_false]

end Operation

/-- Operations follow one another by the rule of EI, beginning behind a given operation, if there is
one, and with interrupts permitted or not. -/
inductive FollowsEiRule : Option Operation -> Bool -> List Execution -> Prop where
  | nil (previous? : Option Operation) (permitted : Bool) : FollowsEiRule previous? permitted []
  | cons {previous? : Option Operation} {permitted : Bool} {execution : Execution}
      {later : List Execution}
      (rule : execution.permitted = execution.operation.permits previous? permitted)
      (rest : FollowsEiRule (some execution.operation) execution.permitted later) :
      FollowsEiRule previous? permitted (execution :: later)

/-- The rule holds of each operation in the sequence and of the one executed before it. -/
theorem FollowsEiRule.rule_of_split {previous? : Option Operation} {permitted : Bool}
    {earlier later : List Execution} {execution : Execution}
    (follows : FollowsEiRule previous? permitted (earlier ++ execution :: later)) :
    execution.permitted = execution.operation.permits
      ((earlier.getLast?.map Execution.operation).or previous?)
      ((earlier.getLast?.map Execution.permitted).getD permitted) := by
  induction earlier generalizing previous? permitted with
  | nil =>
      cases follows with
      | cons rule rest => exact rule
  | cons first earlier inductionHypothesis =>
      cases follows with
      | cons rule rest =>
          rw [inductionHypothesis rest, List.getLast?_cons]
          cases earlier.getLast? <;> rfl

namespace Wired

variable {Memory : Type} [Bus Memory]

/-! ## Histories -/

/-- The processor and its memory after an occurrence. -/
def act (wired : Wired Memory) : Occurrence Memory -> Wired Memory
  | .step => wired.step.2
  | .change memory => { wired with memory := memory }
  | .wake => { wired with cpu := wired.cpu.wake }

/-- What is executed in an occurrence: a step that finds an operation executes it. -/
def executed (wired : Wired Memory) : Occurrence Memory -> List Execution
  | .step =>
      match wired.operation? with
      | some operation => [⟨operation, wired.step.2.cpu.ime⟩]
      | none => []
  | _ => []

/-- The operations that are executed while some things happen, one after the other. -/
def executions (wired : Wired Memory) : List (Occurrence Memory) -> List Execution
  | [] => []
  | occurrence :: later => wired.executed occurrence ++ (wired.act occurrence).executions later

end Wired

namespace Latched

variable {Memory : Type} [Bus Memory]

/-- The processor with two latches and its memory after an occurrence. -/
def act (latched : Latched Memory) : Occurrence Memory -> Latched Memory
  | .step => latched.step.2
  | .change memory => ⟨{ latched.wired with memory := memory }, latched.enableDelayed⟩
  | .wake => ⟨{ latched.wired with cpu := latched.wired.cpu.wake }, latched.enableDelayed⟩

def executed (latched : Latched Memory) : Occurrence Memory -> List Execution
  | .step =>
      match latched.wired.operation? with
      | some operation => [⟨operation, latched.step.2.wired.cpu.ime⟩]
      | none => []
  | _ => []

/-- The operations that are executed while some things happen. -/
def executions (latched : Latched Memory) : List (Occurrence Memory) -> List Execution
  | [] => []
  | occurrence :: later =>
      latched.executed occurrence ++ (latched.act occurrence).executions later

theorem exists_act_eq (latched : Latched Memory) (occurrence : Occurrence Memory) :
    ∃ leftover, latched.act occurrence = ⟨latched.wired.act occurrence, leftover⟩ := by
  cases occurrence with
  | step =>
      rcases latched.exists_step_eq with ⟨leftover, stepped⟩
      exact ⟨leftover, congrArg Prod.snd stepped⟩
  | change memory => exact ⟨latched.enableDelayed, rfl⟩
  | wake => exact ⟨latched.enableDelayed, rfl⟩

theorem executed_eq (latched : Latched Memory) (occurrence : Occurrence Memory) :
    latched.executed occurrence = latched.wired.executed occurrence := by
  cases occurrence with
  | step =>
      rcases latched.exists_step_eq with ⟨leftover, stepped⟩
      rw [executed, Wired.executed, stepped]
  | change memory => rfl
  | wake => rfl

/-- What is left in the second latch does not change what is executed and permitted. -/
theorem executions_eq (latched : Latched Memory) (occurrences : List (Occurrence Memory)) :
    latched.executions occurrences = latched.wired.executions occurrences := by
  induction occurrences generalizing latched with
  | nil => rfl
  | cons occurrence later inductionHypothesis =>
      rcases latched.exists_act_eq occurrence with ⟨leftover, happened⟩
      rw [executions, Wired.executions, executed_eq, happened, inductionHypothesis]

end Latched

namespace Wired

variable {Memory : Type} [Bus Memory]

/-! ## The rule -/

/-- The latch of EI is set if the operation executed last was EI, and only then. -/
def EiLatched (wired : Wired Memory) (previous? : Option Operation) : Prop :=
  wired.cpu.enablePending = (previous? == some .enableInterrupts)

/-- A step that executes nothing leaves the permission and the latch as they are. -/
theorem latches_step_of_none {wired : Wired Memory} (none : wired.operation? = none) :
    wired.step.2.cpu.ime = wired.cpu.ime ∧
      wired.step.2.cpu.enablePending = wired.cpu.enablePending := by
  rcases step_cases_of_none none with ⟨-, stepped⟩ | ⟨-, stepped⟩
  · rw [stepped]
    exact ⟨rfl, rfl⟩
  · rw [stepped]
    exact ⟨rfl, rfl⟩

/-- A step that executes an operation permits what the rule says, and leaves the latch set
if the operation is EI. -/
theorem latches_step_of_operation {wired : Wired Memory} {previous? : Option Operation}
    (latched : wired.EiLatched previous?) {operation : Operation}
    (found : wired.operation? = some operation) :
    wired.step.2.cpu.ime = operation.permits previous? wired.cpu.ime ∧
      wired.step.2.EiLatched (some operation) := by
  rcases Option.map_eq_some_iff.mp found with ⟨⟨same, fetched⟩, decoded, rfl⟩
  have control := control_of_decoded decoded
  have ime : fetched.cpu.ime = wired.cpu.ime := (congrArg Cpu.ime control :)
  have latch : fetched.cpu.enablePending = wired.cpu.enablePending :=
    (congrArg Cpu.enablePending control :)
  rw [EiLatched, step_of_decoded decoded]
  constructor
  · have performed := ime_perform fetched same
    rw [ime, latch, latched] at performed
    rw [Operation.permits_eq]
    exact performed
  · exact enablePending_perform fetched same

theorem followsEiRule_executions {wired : Wired Memory} {previous? : Option Operation}
    (latched : wired.EiLatched previous?) (occurrences : List (Occurrence Memory)) :
    FollowsEiRule previous? wired.cpu.ime (wired.executions occurrences) := by
  induction occurrences generalizing wired previous? with
  | nil => exact .nil previous? wired.cpu.ime
  | cons occurrence later inductionHypothesis =>
      cases occurrence with
      | step =>
          rw [executions, executed, act]
          cases found : wired.operation? with
          | none =>
              rcases latches_step_of_none found with ⟨ime, latch⟩
              have same : wired.step.2.EiLatched previous? := latch.trans latched
              have still := inductionHypothesis same
              rw [ime] at still
              exact still
          | some operation =>
              rcases latches_step_of_operation latched found with ⟨rule, latch⟩
              exact .cons rule (inductionHypothesis latch)
      | change memory =>
          have same : EiLatched { wired with memory := memory } previous? := latched
          exact inductionHypothesis same
      | wake =>
          have same : EiLatched { wired with cpu := wired.cpu.wake } previous? := latched
          exact inductionHypothesis same

/-- Whatever happens to a processor on which EI is not pending, interrupts are permitted
behind an operation if it is RETI, or if the operation executed before it was EI and it is not
DI.  They are not permitted behind DI.  Otherwise they are permitted if they were behind the
operation before it, or at the beginning.  Steps that fail and changes of the memory in between
make no difference, nor does what they leave in a second latch. -/
theorem ei_takes_effect_after_next {wired : Wired Memory}
    (notPending : wired.cpu.enablePending = false) (occurrences : List (Occurrence Memory)) :
    (∀ (earlier : List Execution) (execution : Execution) (later : List Execution),
      wired.executions occurrences = earlier ++ execution :: later ->
      execution.permitted = execution.operation.permits
        (earlier.getLast?.map Execution.operation)
        ((earlier.getLast?.map Execution.permitted).getD wired.cpu.ime)) ∧
    ∀ enableDelayed, Latched.executions ⟨wired, enableDelayed⟩ occurrences =
      wired.executions occurrences := by
  constructor
  · intro earlier execution later split
    have latched : wired.EiLatched none := notPending
    have follows := followsEiRule_executions latched occurrences
    rw [split] at follows
    have rule := follows.rule_of_split
    rw [Option.or_none] at rule
    exact rule
  · intro enableDelayed
    exact Latched.executions_eq ⟨wired, enableDelayed⟩ occurrences

/-- A processor in front of a program. -/
def before (program : List UInt8) : Wired Board :=
  ⟨memoryCpu, (Board.empty .green).setAll 0xC000 program⟩

/-- A program executes EI and runs into an opcode without a meaning.  Somebody puts a NOP
there, behind which interrupts are permitted.  Then come DI, EI and DI, and the second EI takes
no effect. -/
theorem repaired_ei_takes_effect_after_next :
    let start := before [0xFB, 0xD3, 0xF3, 0xFB, 0xF3]
    let repaired := Board.setAll (Board.empty .green) 0xC000 [0xFB, 0x00, 0xF3, 0xFB, 0xF3]
    let occurrences : List (Occurrence Board) :=
      [.step, .step, .change repaired, .step, .step, .step, .step]
    start.cpu.enablePending = false ∧
      start.step.2.step.1 = .error ⟨0xD3, 0xC001⟩ ∧
      start.executions occurrences = [⟨.enableInterrupts, false⟩, ⟨.nop, true⟩,
        ⟨.disableInterrupts, false⟩, ⟨.enableInterrupts, false⟩, ⟨.disableInterrupts, false⟩] ∧
      Operation.nop.permits (some .enableInterrupts) false = true ∧
      Latched.executions ⟨start, true⟩ occurrences = start.executions occurrences := by
  intro start repaired occurrences
  have notPending : start.cpu.enablePending = false := rfl
  have fails : start.step.2.step.1 = .error ⟨0xD3, 0xC001⟩ := by
    decide +kernel
  have executed : start.executions occurrences = [⟨.enableInterrupts, false⟩] ++ ⟨.nop, true⟩ ::
      [⟨.disableInterrupts, false⟩, ⟨.enableInterrupts, false⟩, ⟨.disableInterrupts, false⟩] := by
    decide +kernel
  rcases ei_takes_effect_after_next notPending occurrences with ⟨rule, latched⟩
  exact ⟨notPending, fails, executed, (rule _ _ _ executed).symm, latched true⟩

end Wired

end Dmg
