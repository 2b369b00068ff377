import Dmg.Proofs.Bits
import Dmg.Proofs.Cpu.Accumulator

/-!
# What an operation does to F

Most operations leave F alone.  Of the others each touches certain flags, and sets some of
them to the same value whatever it finds.  A program relies on that, on the flags that an
operation does not touch, and on the lower four bits of F, which belong to no flag and stay
clear.

An operation either packs all of F anew or puts some flags one after the other, and an
operation that leaves F alone puts none.  So there is one argument for each way, and every
operation is a case of one of them.
-/

namespace Dmg

namespace Arithmetic

/-- The flags that an operation on A sets to the same value whatever it finds. -/
def fixed : Arithmetic -> List (Flag × Bool)
  | add | adc => [(.subtract, false)]
  | sub | sbc | cp => [(.subtract, true)]
  | and => [(.subtract, false), (.halfCarry, true), (.carry, false)]
  | xor | or => [(.subtract, false), (.halfCarry, false), (.carry, false)]

end Arithmetic

namespace Operation

/-- The flags that an operation sets.  It leaves the others as they are. -/
def touched : Operation -> List Flag
  | increment _ | decrement _ | testBit _ _ => [.zero, .subtract, .halfCarry]
  | addPair _ | setCarry | complementCarry => [.subtract, .halfCarry, .carry]
  | complement => [.subtract, .halfCarry]
  | decimalAdjust => [.carry, .halfCarry, .zero]
  | arithmetic _ _ | arithmeticByte _ | rotateA _ | shift _ _ | addStackOffset
  | loadStackOffset | pop .af => [.zero, .subtract, .halfCarry, .carry]
  | _ => []

/-- The flags that an operation sets to the same value whatever it finds. -/
def fixed : Operation -> List (Flag × Bool)
  | increment _ | addPair _ => [(.subtract, false)]
  | decrement _ => [(.subtract, true)]
  | testBit _ _ => [(.subtract, false), (.halfCarry, true)]
  | setCarry => [(.subtract, false), (.halfCarry, false), (.carry, true)]
  | complementCarry | shift _ _ => [(.subtract, false), (.halfCarry, false)]
  | complement => [(.subtract, true), (.halfCarry, true)]
  | decimalAdjust => [(.halfCarry, false)]
  | rotateA _ => [(.zero, false), (.subtract, false), (.halfCarry, false)]
  | addStackOffset | loadStackOffset => [(.zero, false), (.subtract, false)]
  | arithmetic operation _ | arithmeticByte operation => operation.fixed
  | _ => []

theorem nodup_touched (operation : Operation) : operation.touched.Nodup := by
  unfold touched
  split <;> decide

end Operation

namespace Registers

/-- F holds flags and nothing else: its lower four bits are clear. -/
def OnlyFlags (registers : Registers) : Prop :=
  registers.f &&& 0x0F = 0

instance (registers : Registers) : Decidable registers.OnlyFlags :=
  inferInstanceAs (Decidable (_ = _))

/-- What an operation has done to F is what belongs to it. -/
structure Flagged (operation : Operation) (before after : Registers) : Prop where
  untouched : ∀ flag, flag ∉ operation.touched -> after.flag flag = before.flag flag
  same : operation.touched = [] -> after.f = before.f
  fixed : ∀ change ∈ operation.fixed, after.flag change.1 = change.2
  onlyFlags : before.OnlyFlags -> after.OnlyFlags

/-! ## Ways to write F -/

/-- Put values into flags, one after the other. -/
def putFlags (registers : Registers) (changes : List (Flag × Bool)) : Registers :=
  changes.foldl (fun registers change => registers.setFlag change.1 change.2) registers

theorem flag_putFlags (registers : Registers) {changes : List (Flag × Bool)} {flag : Flag}
    (other : flag ∉ changes.map Prod.fst) :
    (registers.putFlags changes).flag flag = registers.flag flag := by
  induction changes generalizing registers with
  | nil => rfl
  | cons change changes inductionHypothesis =>
      rcases List.ne_and_not_mem_of_not_mem_cons other with ⟨different, others⟩
      calc
        ((registers.setFlag change.1 change.2).putFlags changes).flag flag
        _ = (registers.setFlag change.1 change.2).flag flag := inductionHypothesis _ others
        _ = registers.flag flag := by rw [flag_setFlag, if_neg different]

theorem flag_putFlags_of_mem (registers : Registers) {changes : List (Flag × Bool)}
    (single : (changes.map Prod.fst).Nodup) {change : Flag × Bool} (member : change ∈ changes) :
    (registers.putFlags changes).flag change.1 = change.2 := by
  induction changes generalizing registers with
  | nil => cases member
  | cons head changes inductionHypothesis =>
      rcases List.nodup_cons.mp single with ⟨other, others⟩
      rcases List.mem_cons.mp member with rfl | member
      · calc
          ((registers.setFlag change.1 change.2).putFlags changes).flag change.1
          _ = (registers.setFlag change.1 change.2).flag change.1 := flag_putFlags _ other
          _ = change.2 := by rw [flag_setFlag, if_pos rfl]
      · exact inductionHypothesis (registers.setFlag head.1 head.2) others member

theorem onlyFlags_setFlag {registers : Registers} (clean : registers.OnlyFlags) (flag : Flag)
    (raised : Bool) : (registers.setFlag flag raised).OnlyFlags := by
  have outside : flag.mask &&& 0x0F = 0 := by
    cases flag <;> decide
  have before : registers.f &&& 0x0F = 0 := clean
  cases raised with
  | false =>
      change registers.f &&& ~~~flag.mask &&& 0x0F = 0
      rw [Bits.and_right_comm, before, UInt8.zero_and]
  | true =>
      change (registers.f ||| flag.mask) &&& 0x0F = 0
      rw [Bits.and_or_distrib, before, outside, UInt8.or_zero]

theorem onlyFlags_putFlags {registers : Registers} (clean : registers.OnlyFlags)
    (changes : List (Flag × Bool)) : (registers.putFlags changes).OnlyFlags := by
  induction changes generalizing registers with
  | nil => exact clean
  | cons change changes inductionHypothesis =>
      exact inductionHypothesis (onlyFlags_setFlag clean change.1 change.2)

theorem onlyFlags_of_pack {registers : Registers} {zero subtract halfCarry carry : Bool}
    (packed : registers.f = Flag.pack zero subtract halfCarry carry) : registers.OnlyFlags := by
  rw [OnlyFlags, packed]
  clear packed
  revert zero subtract halfCarry carry
  decide

theorem onlyFlags_setAf (registers : Registers) (word : UInt16) :
    (registers.setAf word).OnlyFlags := by
  change Word.low word &&& 0xF0 &&& 0x0F = 0
  rw [UInt8.and_assoc]
  exact UInt8.and_zero

section Flagged

variable {operation : Operation} {before after : Registers}

/-- An operation that puts the flags that it touches, and no others. -/
theorem Flagged.of_putFlags (changes : List (Flag × Bool))
    (put : after.f = (before.putFlags changes).f)
    (touched : changes.map Prod.fst = operation.touched)
    (fixed : operation.fixed ⊆ changes) :
    Flagged operation before after := by
  have flags (flag : Flag) : after.flag flag = (before.putFlags changes).flag flag := by
    rw [Registers.flag, put, Registers.flag]
  refine ⟨?_, ?_, ?_, ?_⟩
  · intro flag other
    rw [← touched] at other
    rw [flags, flag_putFlags before other]
  · intro none
    rw [none, List.map_eq_nil_iff] at touched
    rw [put, touched]
    rfl
  · intro change member
    rw [flags]
    apply flag_putFlags_of_mem before _ (fixed member)
    rw [touched]
    exact operation.nodup_touched
  · intro clean
    change after.f &&& 0x0F = 0
    rw [put]
    exact onlyFlags_putFlags clean changes

/-- An operation that leaves F alone. -/
theorem Flagged.of_same (same : after.f = before.f) (touched : operation.touched = [])
    (free : operation.fixed = []) : Flagged operation before after := by
  refine .of_putFlags [] same touched.symm ?_
  rw [free]
  exact List.nil_subset []

/-- An operation that packs F, and touches all of its flags. -/
theorem Flagged.of_pack {zero subtract halfCarry carry : Bool}
    (packed : after.f = Flag.pack zero subtract halfCarry carry)
    (touched : operation.touched = [.zero, .subtract, .halfCarry, .carry])
    (fixed : operation.fixed ⊆
      [(.zero, zero), (.subtract, subtract), (.halfCarry, halfCarry), (.carry, carry)]) :
    Flagged operation before after := by
  refine ⟨?_, ?_, ?_, fun _ => onlyFlags_of_pack packed⟩
  · intro flag other
    rw [touched] at other
    cases flag <;> exact absurd (by decide) other
  · intro none
    rw [touched] at none
    cases none
  · intro change member
    rw [flag_of_pack packed]
    have inside := fixed member
    simp only [List.mem_cons, List.not_mem_nil, or_false] at inside
    rcases inside with rfl | rfl | rfl | rfl <;> rfl

end Flagged

/-- What is combined with A packs F, with the values that the operation always sets. -/
theorem exists_pack_combine (registers : Registers) (arithmetic : Arithmetic) (byte : UInt8) :
    ∃ zero subtract halfCarry carry,
      (registers.combine arithmetic byte).f = Flag.pack zero subtract halfCarry carry ∧
        arithmetic.fixed ⊆
          [(.zero, zero), (.subtract, subtract), (.halfCarry, halfCarry), (.carry, carry)] := by
  cases arithmetic <;> exact ⟨_, _, _, _, rfl, by simp [Arithmetic.fixed]⟩

/-! ## Registers that are no flags -/

@[simp] theorem f_setPair (registers : Registers) (target : Pair) (word : UInt16) :
    (registers.setPair target word).f = registers.f := by
  cases target <;> rfl

@[simp] theorem f_stepPointer (registers : Registers) (pointer : Pointer) :
    (registers.stepPointer pointer).f = registers.f := by
  cases pointer <;> rfl

end Registers

/-! ## Operations -/

namespace Wired

open Registers (Flagged)

variable {Memory : Type} [Bus Memory] (wired : Wired Memory)

@[simp] theorem f_writeOperand (target : Operand) (byte : UInt8) :
    (wired.writeOperand target byte).registers.f = wired.registers.f := by
  cases target <;> rfl

theorem f_fetchWord : wired.fetchWord.2.registers.f = wired.registers.f :=
  rfl

theorem f_call (address : UInt16) : (wired.call address).registers.f = wired.registers.f :=
  rfl

theorem f_ret : wired.ret.registers.f = wired.registers.f :=
  rfl

/-- An operation that changes the registers and stores a byte in an operand does to F what
the change does. -/
theorem f_update (source target : Operand) (change : Registers -> Registers) (byte : UInt8) :
    (((wired.readOperand source).2.mapRegisters change).writeOperand target byte).registers.f =
      (change wired.registers).f := by
  rw [f_writeOperand, ← wired.registers_readOperand source]
  rfl

theorem flagged_execute (operation : Operation) :
    Flagged operation wired.registers (wired.execute operation).registers := by
  cases operation with
  | nop | stop | halt | disableInterrupts | enableInterrupts | storeHigh | loadHigh | storeHighC
  | loadHighC | storeAbsolute | loadAbsolute | storeStackPointer | loadStackPointer | push source
  | jumpHl | reti | restart index =>
      exact .of_same rfl rfl rfl
  | load target source =>
      exact .of_same (wired.f_update source target id _) rfl rfl
  | resetBit index target | setBit index target =>
      exact .of_same (wired.f_update target target id _) rfl rfl
  | loadByte target => exact .of_same (f_writeOperand _ _ _) rfl rfl
  | loadWord target | incrementPair target | decrementPair target =>
      exact .of_same (Registers.f_setPair _ _ _) rfl rfl
  | storeThrough pointer | loadThrough pointer =>
      exact .of_same (Registers.f_stepPointer _ _) rfl rfl
  | jumpRelative condition | jump condition =>
      refine .of_same ?_ rfl rfl
      rw [execute]
      split <;> rfl
  | call condition =>
      refine .of_same ?_ rfl rfl
      rw [execute]
      split
      · exact f_call wired.fetchWord.2 _
      · exact f_fetchWord wired
  | ret condition =>
      refine .of_same ?_ rfl rfl
      rw [execute]
      split
      · exact f_ret wired
      · rfl
  | pop target =>
      cases target with
      | af =>
          refine ⟨?_, ?_, ?_, fun _ => Registers.onlyFlags_setAf _ _⟩
          · intro flag other
            cases flag <;> exact absurd (by decide) other
          · intro none
            cases none
          · intro change member
            cases member
      | _ => exact .of_same rfl rfl rfl
  | increment target =>
      exact .of_putFlags [(.zero, _), (.subtract, _), (.halfCarry, _)]
        (wired.f_update target target (fun registers => registers.flagIncrement _) _) rfl
        (by simp [Operation.fixed])
  | decrement target =>
      exact .of_putFlags [(.zero, _), (.subtract, _), (.halfCarry, _)]
        (wired.f_update target target (fun registers => registers.flagDecrement _) _) rfl
        (by simp [Operation.fixed])
  | testBit index source =>
      let absent := (wired.readOperand source).1 &&& Registers.bitMask index == 0
      refine .of_putFlags [(.zero, absent), (.subtract, false), (.halfCarry, true)] ?_ rfl
        (by simp [Operation.fixed])
      change ((wired.readOperand source).2.registers.testBit index _).f = _
      rw [registers_readOperand]
      rfl
  | addPair source =>
      exact .of_putFlags [(.subtract, false), (.halfCarry, _), (.carry, _)] rfl rfl
        (by simp [Operation.fixed])
  | setCarry | complementCarry =>
      exact .of_putFlags [(.subtract, false), (.halfCarry, false), (.carry, _)] rfl rfl
        (by simp [Operation.fixed])
  | complement =>
      exact .of_putFlags [(.subtract, true), (.halfCarry, true)] rfl rfl
        (by simp [Operation.fixed])
  | decimalAdjust =>
      exact .of_putFlags [(.carry, _), (.halfCarry, false), (.zero, _)] rfl rfl
        (by simp [Operation.fixed])
  | arithmetic arithmetic source =>
      rcases Registers.exists_pack_combine (wired.readOperand source).2.registers arithmetic
        (wired.readOperand source).1 with ⟨zero, subtract, halfCarry, carry, packed, fixed⟩
      exact .of_pack packed rfl fixed
  | arithmeticByte arithmetic =>
      rcases Registers.exists_pack_combine wired.fetchByte.2.registers arithmetic
        wired.fetchByte.1 with ⟨zero, subtract, halfCarry, carry, packed, fixed⟩
      exact .of_pack packed rfl fixed
  | shift movement target =>
      exact .of_pack (f_writeOperand _ _ _) rfl (by simp [Operation.fixed])
  | rotateA rotation | addStackOffset | loadStackOffset =>
      exact .of_pack rfl rfl (by simp [Operation.fixed])

/-! ## Steps -/

/-- A step does to F what belongs to its operation. -/
theorem flagged_of_operation {wired : Wired Memory} {operation : Operation}
    (defined : wired.operation? = some operation) :
    (∃ timing, wired.step.1 = .ok timing) ∧
      Flagged operation wired.registers wired.step.2.registers := by
  rcases Option.map_eq_some_iff.mp defined with ⟨⟨operation, fetched⟩, decoded, rfl⟩
  refine ⟨⟨_, congrArg Prod.fst (step_of_decoded decoded)⟩, ?_⟩
  let unarmed : Wired Memory :=
    { fetched with cpu := { fetched.cpu with enablePending := false } }
  have performed : wired.step.2.registers = (unarmed.execute operation).registers := by
    rw [step_of_decoded decoded]
    rfl
  have executed : Flagged operation fetched.registers (unarmed.execute operation).registers :=
    unarmed.flagged_execute operation
  rw [registers_of_decoded decoded] at executed
  rw [performed]
  exact ⟨executed.untouched, executed.same, executed.fixed, executed.onlyFlags⟩

/-- Where no operation is executed F stays: a processor that waits changes nothing, and a step
that fails changes no register. -/
theorem f_step_of_none {wired : Wired Memory} (none : wired.operation? = none) :
    wired.step.2.registers.f = wired.registers.f := by
  rcases step_cases_of_none none with ⟨-, stepped⟩ | ⟨-, stepped⟩
  · rw [stepped]
    rfl
  · rw [stepped]
    rfl

/-- A dispatch pushes the program counter and goes on elsewhere, and does not touch F. -/
theorem f_serviceInterrupts (wired : Wired Memory) :
    wired.serviceInterrupts.2.registers.f = wired.registers.f := by
  rw [serviceInterrupts]
  dsimp only
  split
  · rfl
  · split
    · exact f_call _ _
    · rfl

/-! ## Courses -/

/-- What goes on with a processor and its bus as time passes: steps are taken, whose operations
may be restricted, and requests are looked for, while the devices on the bus go on by
themselves. -/
inductive Course (allowed : Operation -> Prop) : Wired Memory -> Wired Memory -> Prop where
  | done (wired : Wired Memory) : Course allowed wired wired
  | step {wired last : Wired Memory}
      (permitted : ∀ operation, wired.operation? = some operation -> allowed operation)
      (rest : Course allowed wired.step.2 last) : Course allowed wired last
  | look {wired last : Wired Memory} (rest : Course allowed wired.serviceInterrupts.2 last) :
      Course allowed wired last
  | devices {wired last : Wired Memory} (memory : Memory)
      (rest : Course allowed { wired with memory := memory } last) : Course allowed wired last

namespace Course

variable {allowed : Operation -> Prop} {first middle last : Wired Memory}

/-- An operation that is allowed may be executed before a course. -/
theorem step_of_operation {operation : Operation}
    (executed : first.operation? = some operation) (permitted : allowed operation)
    (rest : Course allowed first.step.2 last) : Course allowed first last := by
  refine .step (fun same found => ?_) rest
  rw [executed] at found
  cases found
  exact permitted

theorem trans (early : Course allowed first middle) (late : Course allowed middle last) :
    Course allowed first last := by
  induction early with
  | done => exact late
  | step permitted rest inductionHypothesis => exact .step permitted (inductionHypothesis late)
  | look rest inductionHypothesis => exact .look (inductionHypothesis late)
  | devices memory rest inductionHypothesis => exact .devices memory (inductionHypothesis late)

/-- A flag that no operation on the way touches is kept. -/
theorem flag_eq {flag : Flag} (course : Course allowed first last)
    (untouched : ∀ operation, allowed operation -> flag ∉ operation.touched) :
    last.registers.flag flag = first.registers.flag flag := by
  induction course with
  | done => rfl
  | @step wired last permitted rest inductionHypothesis =>
      rw [inductionHypothesis]
      cases executed : wired.operation? with
      | none => rw [Registers.flag, f_step_of_none executed, Registers.flag]
      | some operation =>
          rcases flagged_of_operation executed with ⟨-, flagged⟩
          exact flagged.untouched flag (untouched operation (permitted operation executed))
  | @look wired last rest inductionHypothesis =>
      rw [inductionHypothesis, Registers.flag, f_serviceInterrupts, Registers.flag]
  | devices memory rest inductionHypothesis => exact inductionHypothesis

/-- F keeps holding flags and nothing else. -/
theorem onlyFlags (course : Course allowed first last) (clean : first.registers.OnlyFlags) :
    last.registers.OnlyFlags := by
  induction course with
  | done => exact clean
  | @step wired last permitted rest inductionHypothesis =>
      apply inductionHypothesis
      cases executed : wired.operation? with
      | none =>
          rw [Registers.OnlyFlags, f_step_of_none executed]
          exact clean
      | some operation =>
          rcases flagged_of_operation executed with ⟨-, flagged⟩
          exact flagged.onlyFlags clean
  | @look wired last rest inductionHypothesis =>
      apply inductionHypothesis
      rw [Registers.OnlyFlags, f_serviceInterrupts]
      exact clean
  | devices memory rest inductionHypothesis => exact inductionHypothesis clean

end Course

end Wired

end Dmg
