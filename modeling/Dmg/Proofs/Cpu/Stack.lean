import Dmg.Proofs.Cpu.Traffic

/-!
# The stack

A word on the stack takes the two bytes under the stack pointer, the high byte above the low
one.  On flat memory what was put there last is taken first, wherever the stack pointer is:
the addresses go round, and the stack may fill all of them.

First this is shown of pushes and pops as such, which nest like brackets.  Then it is shown of
instructions.  What goes on between the one that saves a word and the one that takes it back
may put words on the stack itself, as long as it takes them off again and writes nothing else.
-/

namespace Dmg

namespace Registers

/-- How far an address is under the stack pointer: none for the byte that is pushed next, and
one more for each byte behind it. -/
def under (registers : Registers) (address : UInt16) : Nat :=
  (registers.sp - 1 - address).toNat

theorem under_sub_one {registers : Registers} : registers.under (registers.sp - 1) = 0 := by
  rw [under, UInt16.sub_self]
  rfl

theorem under_sub_two {registers : Registers} : registers.under (registers.sp - 2) = 1 := by
  have apart : registers.sp - 1 - (registers.sp - 2) = 1 := by grind
  rw [under, apart]
  rfl

/-- A word on the stack brings the stack pointer nearer to what is under it. -/
theorem under_pushed {first pushed : Registers} (sp : pushed.sp = first.sp - 2)
    {address : UInt16} (outside : 2 <= first.under address) :
    pushed.under address = first.under address - 2 := by
  have bound := address.toNat_lt
  have top := first.sp.toNat_lt
  rw [under] at outside
  rw [under, under, sp]
  simp only [UInt16.toNat_sub, UInt16.toNat_ofNat] at outside ⊢
  omega

/-- The bytes of a word are as far from the stack pointer under it as any address can be. -/
theorem under_pushed_of_sub_two {first pushed : Registers} (sp : pushed.sp = first.sp - 2) :
    pushed.under (first.sp - 1) = 65534 ∧ pushed.under (first.sp - 2) = 65535 := by
  have high : first.sp - 2 - 1 - (first.sp - 1) = 65534 := by grind
  have low : first.sp - 2 - 1 - (first.sp - 2) = 65535 := by grind
  rw [under, under, sp, high, low]
  exact ⟨rfl, rfl⟩

end Registers

namespace Wired

/-! ## Words on flat memory -/

section Top

variable {Memory : Type} [Bus Memory]

/-- The word on top of the stack. -/
def top (wired : Wired Memory) : UInt16 :=
  (Bus.readWord wired.memory wired.registers.sp).1

/-- Taking a word moves the stack pointer and nothing else. -/
theorem pop_eq (quiet : Bus.IsQuiet Memory) (wired : Wired Memory) :
    wired.pop = (wired.top, wired.mapRegisters fun registers =>
      { registers with sp := registers.sp + 2 }) := by
  rw [pop, top, Bus.readWord, readByte, readByte, quiet, quiet]
  rfl

end Top

/-- A word has been put on the stack, and nothing else was written. -/
structure Puts (first next : Wired FlatMemory) (word : UInt16) : Prop where
  sp : next.registers.sp = first.registers.sp - 2
  memory : next.memory = (first.memory.set (first.registers.sp - 1) (Word.high word)).set
    (first.registers.sp - 2) (Word.low word)

/-- The stack pointer is where it was, and so is every byte but those under it that a number
of words take. -/
structure Spares (depth : Nat) (first last : Wired FlatMemory) : Prop where
  sp : last.registers.sp = first.registers.sp
  memory : ∀ address, 2 * depth <= first.registers.under address ->
    last.memory.get address = first.memory.get address

theorem Spares.refl (wired : Wired FlatMemory) : Spares 0 wired wired :=
  ⟨rfl, fun _ _ => rfl⟩

theorem Spares.trans {early late : Nat} {first second third : Wired FlatMemory}
    (sooner : Spares early first second) (later : Spares late second third) :
    Spares (max early late) first third := by
  refine ⟨later.sp.trans sooner.sp, fun address outside => ?_⟩
  have below : second.registers.under address = first.registers.under address := by
    rw [Registers.under, Registers.under, sooner.sp]
  rw [later.memory address (by omega), sooner.memory address (by omega)]

/-- As long as the stack does not go all the way round, what is put on it stays there. -/
theorem Spares.top {depth : Nat} {first pushed inside : Wired FlatMemory} {word : UInt16}
    (puts : Puts first pushed word) (spares : Spares depth pushed inside)
    (fits : depth < 32768) : inside.top = word := by
  rcases Registers.under_pushed_of_sub_two puts.sp with ⟨high, low⟩
  have next : inside.registers.sp + 1 = first.registers.sp - 1 := by
    rw [spares.sp, puts.sp]
    grind
  have here : inside.registers.sp = first.registers.sp - 2 := spares.sp.trans puts.sp
  have apart : first.registers.sp - 2 ≠ first.registers.sp - 1 := by grind
  change Word.ofBytes (inside.memory.get (inside.registers.sp + 1))
    (inside.memory.get inside.registers.sp) = word
  rw [next, here, spares.memory _ (by omega), spares.memory _ (by omega), puts.memory,
    FlatMemory.get_set, if_neg apart, FlatMemory.get_set, if_pos rfl, FlatMemory.get_set,
    if_pos rfl, Word.ofBytes_high_low]

/-- What puts a word on the stack, leaves no more behind, and takes the word again, leaves
nothing behind but the word. -/
theorem Spares.around {depth : Nat} {first pushed inside last : Wired FlatMemory} {word : UInt16}
    (puts : Puts first pushed word) (spares : Spares depth pushed inside)
    (sp : last.registers.sp = inside.registers.sp + 2) (memory : last.memory = inside.memory) :
    Spares (depth + 1) first last := by
  constructor
  · rw [sp, spares.sp, puts.sp]
    grind
  · intro address outside
    have beyond : 2 <= first.registers.under address := by omega
    have deeper := Registers.under_pushed puts.sp beyond
    have notHigh : first.registers.sp - 1 ≠ address := by
      intro same
      rw [← same, Registers.under_sub_one] at outside
      omega
    have notLow : first.registers.sp - 2 ≠ address := by
      intro same
      rw [← same, Registers.under_sub_two] at outside
      omega
    rw [memory, spares.memory address (by omega), puts.memory, FlatMemory.get_set, if_neg notLow,
      FlatMemory.get_set, if_neg notHigh]

end Wired

/-! ## Pushes and pops -/

/-- A word is put on the stack, or the topmost one is taken. -/
inductive StackAction where
  | push (word : UInt16)
  | pop
  deriving DecidableEq, Repr

/-- Pushes and pops that nest like brackets: there are none, or a first push with what is done
until its word is taken, and what is done from then on. -/
inductive Nesting where
  | done
  | around (word : UInt16) (inner rest : Nesting)

namespace Nesting

/-- The pushes and pops in the order in which they are done. -/
def actions : Nesting -> List StackAction
  | done => []
  | around word inner rest => .push word :: (inner.actions ++ .pop :: rest.actions)

/-- For each pop the word of the push that goes with it, in the order of the pops. -/
def words : Nesting -> List UInt16
  | done => []
  | around word inner rest => inner.words ++ word :: rest.words

/-- How many words are on the stack at most. -/
def depth : Nesting -> Nat
  | done => 0
  | around _ inner rest => max (inner.depth + 1) rest.depth

end Nesting

namespace Wired

section Run

variable {Memory : Type} [Bus Memory]

/-- Do pushes and pops one after the other.  The answer is what the pops find. -/
def stackRun (wired : Wired Memory) : List StackAction -> List UInt16 × Wired Memory
  | [] => ([], wired)
  | .push word :: actions => (wired.push word).stackRun actions
  | .pop :: actions =>
      let popped := wired.pop
      let ran := popped.2.stackRun actions
      (popped.1 :: ran.1, ran.2)

theorem stackRun_append (wired : Wired Memory) (early late : List StackAction) :
    wired.stackRun (early ++ late) =
      ((wired.stackRun early).1 ++ ((wired.stackRun early).2.stackRun late).1,
        ((wired.stackRun early).2.stackRun late).2) := by
  induction early generalizing wired with
  | nil => rfl
  | cons action early inductionHypothesis =>
      cases action with
      | push word => exact inductionHypothesis (wired.push word)
      | pop =>
          rw [List.cons_append, stackRun, inductionHypothesis]
          rfl

end Run

/-- What goes on between a push and its pop may leave the processor as it is. -/
theorem cpu_pop_of_push {first inside : Wired FlatMemory} {word : UInt16}
    (kept : inside.cpu = (first.push word).cpu) : inside.pop.2.cpu = first.cpu := by
  have back : first.registers.sp - 2 + 2 = first.registers.sp := by grind
  have popped : inside.pop.2.cpu = { inside.cpu with
      registers := { inside.cpu.registers with sp := inside.cpu.registers.sp + 2 } } := by
    rw [pop_eq isQuiet_flatMemory]
    rfl
  rw [popped, kept]
  change { first.cpu with
    registers := { first.registers with sp := first.registers.sp - 2 + 2 } } = first.cpu
  rw [back]
  rfl

/-- Each pop finds the word of its push, and afterwards the processor is as it was. -/
theorem stackRun_actions {nesting : Nesting} (fits : nesting.depth <= 32768)
    (wired : Wired FlatMemory) :
    (wired.stackRun nesting.actions).1 = nesting.words ∧
      (wired.stackRun nesting.actions).2.cpu = wired.cpu ∧
      Spares nesting.depth wired (wired.stackRun nesting.actions).2 := by
  induction nesting generalizing wired with
  | done => exact ⟨rfl, rfl, .refl wired⟩
  | around word inner rest innerHypothesis restHypothesis =>
      rcases Nat.max_le.mp fits with ⟨innerFits, restFits⟩
      rcases innerHypothesis (Nat.le_of_succ_le innerFits) (wired.push word) with
        ⟨innerWords, innerCpu, innerSpares⟩
      generalize same : (wired.push word).stackRun inner.actions = ran at *
      rcases ran with ⟨found, inside⟩
      have puts : Puts wired (wired.push word) word := ⟨rfl, rfl⟩
      have top : inside.top = word := innerSpares.top puts innerFits
      have popped := pop_eq isQuiet_flatMemory inside
      have spares : Spares (inner.depth + 1) wired inside.pop.2 := by
        rw [popped]
        exact innerSpares.around puts rfl rfl
      have cpu := cpu_pop_of_push innerCpu
      rcases restHypothesis restFits inside.pop.2 with ⟨restWords, restCpu, restSpares⟩
      have whole : wired.stackRun (Nesting.around word inner rest).actions =
          (found ++ inside.pop.1 :: (inside.pop.2.stackRun rest.actions).1,
            (inside.pop.2.stackRun rest.actions).2) := by
        rw [Nesting.actions, stackRun, stackRun_append, same]
        rfl
      rw [whole]
      refine ⟨?_, restCpu.trans cpu, spares.trans restSpares⟩
      have first : inside.pop.1 = word := by
        rw [popped]
        exact top
      change found ++ _ = inner.words ++ word :: rest.words
      rw [first, restWords, ← innerWords]

end Wired

/-! ## Instructions -/

namespace Operation

/-- The word that an operation saves on the stack, if it saves one.  Given is the address
behind the instruction. -/
def saved? (operation : Operation) (registers : Registers) (behind : UInt16) : Option UInt16 :=
  match operation with
  | push source => some (registers.stackPair source)
  | call condition => if condition.isMet registers then some behind else none
  | restart _ => some behind
  | _ => none

/-- Whether an operation goes back to an address on the stack. -/
def returns (operation : Operation) (registers : Registers) : Bool :=
  match operation with
  | ret condition => condition.isMet registers
  | reti => true
  | _ => false

/-- Whether an operation takes a word from the stack. -/
def takes (operation : Operation) (registers : Registers) : Bool :=
  match operation with
  | pop _ => true
  | other => other.returns registers

/-- What an operation makes of the word that it takes. -/
def taken (operation : Operation) (registers : Registers) (word : UInt16) : Registers :=
  match operation with
  | pop target => registers.setStackPair target word
  | _ => { registers with pc := word }

end Operation

namespace Registers

theorem stackPair_setStackPair (registers first : Registers) (pair : StackPair) :
    (registers.setStackPair pair (first.stackPair pair)).stackPair pair = first.stackPair pair := by
  cases pair with
  | af =>
      change Word.ofBytes (Word.high first.af) (Word.low first.af &&& 0xF0 &&& 0xF0) = first.af
      rw [UInt8.and_assoc, UInt8.and_self, af, Word.high_ofBytes, Word.low_ofBytes, UInt8.and_assoc,
        UInt8.and_self]
  | _ => exact Word.ofBytes_high_low _

/-- The lower four bits of F do not come back. -/
theorem setStackPair_af (registers first : Registers) :
    registers.setStackPair .af (first.stackPair .af) =
      { registers with a := first.a, f := first.f &&& 0xF0 } := by
  change { registers with a := Word.high first.af, f := Word.low first.af &&& 0xF0 } = _
  rw [af, Word.high_ofBytes, Word.low_ofBytes, UInt8.and_assoc, UInt8.and_self]

end Registers

namespace Wired

section Step

variable {Memory : Type} [Bus Memory]

/-- The word that the next step saves on the stack, if it saves one. -/
def saves? (wired : Wired Memory) : Option UInt16 :=
  wired.operation?.bind fun operation =>
    operation.saved? wired.registers (wired.registers.pc + UInt16.ofNat operation.length)

/-- Whether the next step takes a word from the stack. -/
def takes (wired : Wired Memory) : Bool :=
  wired.operation?.any fun operation => operation.takes wired.registers

/-- A step executes its operation when the opcode has been fetched. -/
structure Executes (wired ready : Wired Memory) (operation : Operation) : Prop where
  memory : ready.memory = wired.memory
  registers : ready.registers = { wired.registers with pc := ready.registers.pc }
  behind : ready.registers.pc + UInt16.ofNat operation.immediate.size =
    wired.registers.pc + UInt16.ofNat operation.length
  registers_step : wired.step.2.registers = (ready.execute operation).registers
  memory_step : wired.step.2.memory = (ready.execute operation).memory

theorem exists_executes (quiet : Bus.IsQuiet Memory) {wired : Wired Memory} {operation : Operation}
    (found : wired.operation? = some operation) : ∃ ready, Executes wired ready operation := by
  rcases Option.map_eq_some_iff.mp found with ⟨⟨same, fetched⟩, decoded, rfl⟩
  have listed := listed_of_decoded quiet decoded
  have stepped := congrArg Prod.snd (step_of_decoded decoded)
  exact ⟨{ fetched with cpu := { fetched.cpu with enablePending := false } }, {
    memory := listed.memory
    registers := (registers_of_decoded decoded :)
    behind := listed.behind
    registers_step := (congrArg Wired.registers stepped :)
    memory_step := (congrArg Wired.memory stepped :) }⟩

/-- A step that takes a word moves the stack pointer behind it, writes nothing, and does with
the word what its operation does. -/
theorem step_of_takes (quiet : Bus.IsQuiet Memory) {wired : Wired Memory} {operation : Operation}
    (found : wired.operation? = some operation) (takes : operation.takes wired.registers = true) :
    wired.step.2.memory = wired.memory ∧
      wired.step.2.registers = operation.taken { wired.registers with
        pc := wired.registers.pc + UInt16.ofNat operation.length
        sp := wired.registers.sp + 2 } wired.top := by
  rcases exists_executes quiet found with ⟨ready, memory, registers, behind, after, kept⟩
  have top : ready.top = wired.top := by
    rw [Wired.top, memory, registers]
    rfl
  have popped := pop_eq quiet ready
  rw [after, kept]
  cases operation with
  | pop target =>
      have here : ready.registers.pc = _ := (UInt16.add_zero _).symm.trans behind
      rw [execute, popped, top, ← here]
      refine ⟨memory, ?_⟩
      change { ready.registers with sp := ready.registers.sp + 2 }.setStackPair target wired.top = _
      rw [registers]
      rfl
  | ret condition =>
      have met : condition.isMet ready.registers = true := by
        rw [registers]
        exact (Condition.isMet_congr rfl condition).trans takes
      rw [execute, if_pos met, ret, popped, top]
      refine ⟨memory, ?_⟩
      change { ready.registers with sp := ready.registers.sp + 2, pc := wired.top } = _
      rw [registers]
      rfl
  | reti =>
      rw [execute, ret, popped, top]
      refine ⟨memory, ?_⟩
      change { ready.registers with sp := ready.registers.sp + 2, pc := wired.top } = _
      rw [registers]
      rfl
  | _ => cases takes

end Step

/-- The memory behind a step is what its writes make of the memory before it. -/
def flatWrites (start : FlatMemory) : BusInvariant (Recorded FlatMemory) where
  holds recorded := recorded.memory =
    recorded.writes.foldl (fun memory write => memory.set write.1 write.2) start
  read_holds recorded address same := by
    change recorded.memory = ((Access.read address _ :: recorded.accesses).reverse.filterMap
      Access.written?).foldl _ start
    rw [List.reverse_cons, List.filterMap_append]
    exact same.trans (congrArg (List.foldl _ start) (List.append_nil _).symm)
  write_holds recorded address byte same := by
    change recorded.memory.set address byte = ((Access.write address byte ::
      recorded.accesses).reverse.filterMap Access.written?).foldl _ start
    rw [List.reverse_cons, List.filterMap_append, List.foldl_append]
    exact congrArg (FlatMemory.set · address byte) same

theorem memory_step_of_unwritten {wired : Wired FlatMemory} (unwritten : wired.stepWrites = []) :
    wired.step.2.memory = wired.memory := by
  have kept := (flatWrites wired.memory).step_holds
    (show (flatWrites wired.memory).holds wired.recorded.memory from rfl)
  change _ = wired.stepWrites.foldl _ wired.memory at kept
  rw [unwritten] at kept
  rw [step_recorded]
  exact kept

/-- A step that saves a word puts it on the stack. -/
theorem puts_step {wired : Wired FlatMemory} {word : UInt16} (saves : wired.saves? = some word) :
    Puts wired wired.step.2 word := by
  rcases Option.bind_eq_some_iff.mp saves with ⟨operation, found, saved⟩
  rcases exists_executes isQuiet_flatMemory found with
    ⟨ready, memory, registers, behind, after, kept⟩
  have sp : ready.registers.sp = wired.registers.sp := by
    rw [registers]
  cases operation with
  | push source =>
      have pair : ready.registers.stackPair source = word := by
        rw [registers]
        have same := Option.some.inj saved
        cases source <;> exact same
      rw [execute, pair] at after kept
      constructor
      · rw [after, ← sp]
        rfl
      · rw [kept, ← sp, ← memory]
        rfl
  | call condition =>
      rw [Operation.saved?] at saved
      split at saved
      · next met =>
        have taken : (Operation.call condition).isTaken ready.registers = true := by
          rw [registers]
          exact (Condition.isMet_congr rfl condition).trans met
        rcases execute_of_isCall isQuiet_flatMemory taken rfl with ⟨lower, stored⟩
        rw [behind, Option.some.inj saved] at stored
        constructor
        · rw [after, lower, sp]
        · rw [kept, stored, sp, memory]
          rfl
      · cases saved
  | restart index =>
      have taken : (Operation.restart index).isTaken ready.registers = true := rfl
      rcases execute_of_isCall isQuiet_flatMemory taken rfl with ⟨lower, stored⟩
      rw [behind, Option.some.inj saved] at stored
      constructor
      · rw [after, lower, sp]
      · rw [kept, stored, sp, memory]
        rfl
  | _ => cases saved

/-- Steps that leave the stack as they find it.  Some write nothing and leave the stack pointer
alone.  Others save a word, and for each of them there is a later one that takes it. -/
inductive Balanced : Nat -> Wired FlatMemory -> Wired FlatMemory -> Prop where
  | done (wired : Wired FlatMemory) : Balanced 0 wired wired
  | beside {depth : Nat} {wired last : Wired FlatMemory} (unwritten : wired.stepWrites = [])
      (sp : wired.step.2.registers.sp = wired.registers.sp)
      (rest : Balanced depth wired.step.2 last) : Balanced depth wired last
  | around {inner outer : Nat} {wired inside last : Wired FlatMemory} {word : UInt16}
      (saves : wired.saves? = some word) (between : Balanced inner wired.step.2 inside)
      (takes : inside.takes = true) (rest : Balanced outer inside.step.2 last) :
      Balanced (max (inner + 1) outer) wired last

/-- A step that takes a word ends what the step that saved it began. -/
theorem Spares.around_step {depth : Nat} {first pushed inside : Wired FlatMemory} {word : UInt16}
    (puts : Puts first pushed word) (spares : Spares depth pushed inside)
    (takes : inside.takes = true) : Spares (depth + 1) first inside.step.2 := by
  rcases (Option.any_eq_true _ _).mp takes with ⟨operation, found, takes⟩
  rcases step_of_takes isQuiet_flatMemory found takes with ⟨memory, registers⟩
  apply spares.around puts ?_ memory
  rw [registers]
  cases operation with
  | pop target => cases target <;> rfl
  | _ => rfl

theorem Balanced.spares {depth : Nat} {first last : Wired FlatMemory}
    (balanced : Balanced depth first last) : Spares depth first last := by
  induction balanced with
  | done wired => exact .refl wired
  | beside unwritten sp rest inductionHypothesis =>
      have step : Spares 0 _ _ := ⟨sp, fun address _ => by rw [memory_step_of_unwritten unwritten]⟩
      have whole := step.trans inductionHypothesis
      rw [Nat.zero_max] at whole
      exact whole
  | around saves between takes rest innerHypothesis restHypothesis =>
      exact (innerHypothesis.around_step (puts_step saves) takes).trans restHypothesis

/-- A dispatch takes the request back first and then saves the program counter. -/
theorem exists_puts_of_dispatched {check called : Wired FlatMemory} {timing : Timing}
    (looked : check.serviceInterrupts = (some timing, called)) :
    ∃ requests, Puts
      { check with memory := check.memory.set Interrupt.requestAddress requests } called
        check.registers.pc := by
  unfold serviceInterrupts at looked
  dsimp only at looked
  split at looked
  · cases looked
  · split at looked
    · next source vector permitted found =>
      cases looked
      exact ⟨_, rfl, rfl⟩
    · cases looked

/-- A request that is found is dispatched. -/
theorem serviceInterrupts_of_first? {check : Wired FlatMemory} {source : Interrupt}
    {vector : UInt16} (permitted : check.cpu.ime = true)
    (found : Interrupt.first? (check.memory.get Interrupt.permissionAddress &&&
      check.memory.get Interrupt.requestAddress &&& Interrupt.allMask) = some (source, vector)) :
    check.serviceInterrupts = (some dispatchTiming, check.dispatch source vector) := by
  have waits : check.memory.get Interrupt.permissionAddress &&&
      check.memory.get Interrupt.requestAddress &&& Interrupt.allMask ≠ 0 := by
    intro none
    rw [none] at found
    cases found
  refine (if_neg waits).trans ?_
  split
  · next other handler asked first =>
    have same := first.symm.trans found
    cases same
    rfl
  · next other =>
    exact False.elim (other source vector permitted found)

/-- A dispatch leaves every byte alone but the request register and the two under the stack
pointer. -/
theorem get_dispatch {check : Wired FlatMemory} {source : Interrupt} {vector address : UInt16}
    (register : Interrupt.requestAddress ≠ address) (high : check.registers.sp - 1 ≠ address)
    (low : check.registers.sp - 2 ≠ address) :
    (check.dispatch source vector).memory.get address = check.memory.get address := by
  change (((check.memory.set _ _).set (check.registers.sp - 1) _).set
    (check.registers.sp - 2) _).get address = _
  rw [FlatMemory.get_set, if_neg low, FlatMemory.get_set, if_neg high, FlatMemory.get_set,
    if_neg register]

/-! ## The stack as a whole -/

/-- A pair that was pushed is popped again, but for the lower four bits of F. -/
theorem Balanced.pair {depth : Nat} {first inside : Wired FlatMemory} {pair : StackPair}
    (fits : depth < 32768) (push : first.operation? = some (.push pair))
    (between : Balanced depth first.step.2 inside) (pop : inside.operation? = some (.pop pair)) :
    inside.step.2.registers.stackPair pair = first.registers.stackPair pair ∧
      (pair = .af -> inside.step.2.registers.f = first.registers.f &&& 0xF0) ∧
      Spares (depth + 1) first inside.step.2 := by
  have saves : first.saves? = some (first.registers.stackPair pair) := by
    rw [saves?, push]
    rfl
  have takes : inside.takes = true := by
    rw [Wired.takes, pop]
    rfl
  have puts := puts_step saves
  have top := between.spares.top puts fits
  rcases step_of_takes isQuiet_flatMemory pop rfl with ⟨-, registers⟩
  rw [top] at registers
  refine ⟨?_, ?_, between.spares.around_step puts takes⟩
  · rw [registers]
    exact Registers.stackPair_setStackPair _ _ pair
  · intro same
    subst same
    rw [registers]
    exact congrArg Registers.f (Registers.setStackPair_af _ _)

/-- A return goes on where the word that was saved says. -/
theorem Spares.pc_of_returns {depth : Nat} {first pushed inside : Wired FlatMemory} {word : UInt16}
    (fits : depth < 32768) (puts : Puts first pushed word) (between : Spares depth pushed inside)
    {returning : Operation} (found : inside.operation? = some returning)
    (returns : returning.returns inside.registers = true) :
    inside.step.2.registers.pc = word ∧ Spares (depth + 1) first inside.step.2 := by
  have takes : returning.takes inside.registers = true := by
    cases returning with
    | ret condition | reti => exact returns
    | _ => cases returns
  have taken : inside.takes = true := by
    rw [Wired.takes, found]
    exact takes
  rcases step_of_takes isQuiet_flatMemory found takes with ⟨-, registers⟩
  refine ⟨?_, between.around_step puts taken⟩
  rw [registers, between.top puts fits]
  cases returning with
  | ret condition | reti => rfl
  | _ => cases returns

/-- On flat memory the stack gives back last what it got first, wherever it is and as long as
it does not go all the way round.  Pushes and pops that nest leave the processor as it was,
and every byte beyond those that they use.  In particular a pair that is pushed is popped
again, a return goes on behind its call, and a return from a handler where the program was
interrupted, if what goes on in between leaves the stack as it finds it. -/
theorem stack_is_lastIn_firstOut :
    (∀ (wired : Wired FlatMemory) (nesting : Nesting), nesting.depth <= 32768 ->
      (wired.stackRun nesting.actions).1 = nesting.words ∧
        (wired.stackRun nesting.actions).2.cpu = wired.cpu ∧
        Spares nesting.depth wired (wired.stackRun nesting.actions).2) ∧
    ∀ (depth : Nat) (inside : Wired FlatMemory), depth < 32768 ->
      (∀ (first : Wired FlatMemory) (pair : StackPair), first.operation? = some (.push pair) ->
        Balanced depth first.step.2 inside -> inside.operation? = some (.pop pair) ->
        inside.step.2.registers.stackPair pair = first.registers.stackPair pair ∧
          (pair = .af -> inside.step.2.registers.f = first.registers.f &&& 0xF0) ∧
          Spares (depth + 1) first inside.step.2) ∧
      (∀ (first : Wired FlatMemory) (calling returning : Operation),
        first.operation? = some calling -> calling.isCall = true ->
        calling.isTaken first.registers = true -> Balanced depth first.step.2 inside ->
        inside.operation? = some returning -> returning.returns inside.registers = true ->
        inside.step.2.registers.pc = first.registers.pc + UInt16.ofNat calling.length ∧
          Spares (depth + 1) first inside.step.2) ∧
      ∀ (check called : Wired FlatMemory) (timing : Timing),
        check.serviceInterrupts = (some timing, called) -> Balanced depth called inside ->
        inside.operation? = some .reti ->
        inside.step.2.registers.pc = check.registers.pc ∧
          inside.step.2.registers.sp = check.registers.sp ∧
          ∀ address, address ≠ Interrupt.requestAddress ->
            2 * (depth + 1) <= check.registers.under address ->
            inside.step.2.memory.get address = check.memory.get address := by
  constructor
  · intro wired nesting fits
    exact stackRun_actions fits wired
  · intro depth inside fits
    refine ⟨?_, ?_, ?_⟩
    · intro first pair push between pop
      exact Balanced.pair fits push between pop
    · intro first calling returning found call taken between last returns
      have saves : first.saves? =
          some (first.registers.pc + UInt16.ofNat calling.length) := by
        rw [saves?, found]
        cases calling with
        | call condition => exact if_pos taken
        | restart index => rfl
        | _ => cases call
      exact between.spares.pc_of_returns fits (puts_step saves) last returns
    · intro check called timing looked between last
      rcases exists_puts_of_dispatched looked with ⟨requests, puts⟩
      rcases between.spares.pc_of_returns fits puts last rfl with ⟨pc, spares⟩
      refine ⟨pc, spares.sp, ?_⟩
      intro address elsewhere outside
      rw [spares.memory address outside, FlatMemory.get_set, if_neg elsewhere.symm]

/-- A program that pushes a pair, calls a subroutine that does nothing, and pops the pair. -/
def subroutineProgram : Wired FlatMemory where
  cpu := { Cpu.afterBoot with
    registers := { Registers.afterBoot with a := 0x12, f := 0xFF, pc := 0x10, sp := 8 } }
  memory := (FlatMemory.filled 0).setAll 0x10 [0xF5, 0xCD, 0x16, 0x00, 0xF1, 0x00, 0x00, 0xC9]

/-- A processor whose handlers all return at once.  All requests are there and permitted.  The
stack is at the corner of the address space. -/
def returningHandlers : Wired FlatMemory where
  cpu := { Cpu.afterBoot with
    ime := true, registers := { Registers.afterBoot with pc := 0x1234, sp := 1 } }
  memory := .filled 0xD9

/-- Words that go below the first address come back from there, and so do a pair from around a
call, and the address of a program that was interrupted. -/
theorem subroutineProgram_is_lastIn_firstOut :
    let nesting : Nesting :=
      .around 0x1234 (.around 0xABCD .done .done) (.around 0x5678 .done .done)
    let pushed := subroutineProgram.step.2
    let returning := pushed.step.2.step.2
    let popping := returning.step.2
    nesting.depth = 2 ∧
      (returningHandlers.stackRun nesting.actions).1 = [0xABCD, 0x1234, 0x5678] ∧
      subroutineProgram.operation? = some (.push .af) ∧ Balanced 1 pushed popping ∧
      popping.step.2.registers.f = 0xF0 ∧
      pushed.operation? = some (.call .always) ∧ popping.registers.pc = 0x14 ∧
      returningHandlers.serviceInterrupts =
        (some dispatchTiming, returningHandlers.dispatch .vblank 0x40) ∧
      (returningHandlers.dispatch .vblank 0x40).step.2.registers.pc = 0x1234 := by
  intro nesting pushed returning popping
  have push : subroutineProgram.operation? = some (.push .af) := by decide +kernel
  have call : pushed.operation? = some (.call .always) := by decide +kernel
  have ret : returning.operation? = some (.ret .always) := by decide +kernel
  have pop : popping.operation? = some (.pop .af) := by decide +kernel
  have saves : pushed.saves? = some 0x14 := by decide +kernel
  have takes : returning.takes = true := by decide +kernel
  have subroutine : Balanced 0 pushed.step.2 returning :=
    .beside (by decide +kernel) (by decide +kernel) (.done _)
  have between : Balanced 1 pushed popping := .around saves subroutine takes (.done _)
  have dispatches : returningHandlers.serviceInterrupts =
      (some dispatchTiming, returningHandlers.dispatch .vblank 0x40) := by
    apply serviceInterrupts_of_first? rfl
    rw [returningHandlers, FlatMemory.get_filled, FlatMemory.get_filled]
    decide
  have handler : (returningHandlers.dispatch .vblank 0x40).operation? = some .reti := by
    have code : (returningHandlers.dispatch .vblank 0x40).peek 0x40 = 0xD9 :=
      (get_dispatch (by decide) (by decide) (by decide)).trans (FlatMemory.get_filled _ _)
    have awake : ¬ (returningHandlers.dispatch .vblank 0x40).cpu.isIdle = true := nofun
    have here : (returningHandlers.dispatch .vblank 0x40).registers.pc = 0x40 := rfl
    rw [operation?, decoded?, if_neg awake, fetchByte_eq isQuiet_flatMemory, here, code]
    rfl
  rcases stack_is_lastIn_firstOut with ⟨nested, instructions⟩
  rcases nested returningHandlers nesting (by decide) with ⟨words, -, -⟩
  rcases instructions 1 popping (by decide) with ⟨pairs, -, -⟩
  rcases pairs subroutineProgram .af push between pop with ⟨-, flags, -⟩
  rcases instructions 0 returning (by decide) with ⟨-, calls, -⟩
  rcases calls pushed _ _ call rfl rfl subroutine ret rfl with ⟨behind, -⟩
  rcases instructions 0 _ (by decide) with ⟨-, -, interrupts⟩
  rcases interrupts returningHandlers _ _ dispatches (.done _) handler with ⟨back, -⟩
  refine ⟨rfl, words, push, between, flags rfl, call, ?_, dispatches, back⟩
  rw [behind]
  decide +kernel

end Wired

end Dmg
