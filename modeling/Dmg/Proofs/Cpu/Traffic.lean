import Dmg.Cpu.Mnemonic
import Dmg.Proofs.Board.Ram
import Dmg.Proofs.Cpu.Listing
import Dmg.Proofs.Cpu.View
import Dmg.Proofs.Machine.Halt

/-!
# What an instruction does on the bus

Behind an address there may be a device that takes notice of every access, so it matters
what an instruction reads and writes, and in which order.  It reads its own bytes, then
the bytes that it works on, and then it writes.  Where it writes follows from the
registers and from its operand, and what it writes from these and from the bytes that it
has read.

The tables here say this of every operation.  That they are right is shown on a recorded
memory, for one action after the other.
-/

namespace Dmg

namespace Access

/-- The access that writes a byte to an address. -/
def ofWrite (write : UInt16 × UInt8) : Access :=
  .write write.1 write.2

/-- The accesses that find bytes at successive addresses. -/
def reads (address : UInt16) : List UInt8 -> List Access
  | [] => []
  | byte :: rest => .read address byte :: reads (address + 1) rest

@[simp] theorem filterMap_reads (address : UInt16) (bytes : List UInt8) :
    (reads address bytes).filterMap written? = [] := by
  induction bytes generalizing address with
  | nil => rfl
  | cons byte rest inductionHypothesis => exact inductionHypothesis (address + 1)

@[simp] theorem filterMap_zipWith_read (addresses : List UInt16) (bytes : List UInt8) :
    (List.zipWith read addresses bytes).filterMap written? = [] := by
  induction addresses generalizing bytes with
  | nil => rfl
  | cons address addresses inductionHypothesis =>
      cases bytes with
      | nil => rfl
      | cons byte bytes => exact inductionHypothesis bytes

@[simp] theorem filterMap_ofWrite (writes : List (UInt16 × UInt8)) :
    (writes.map ofWrite).filterMap written? = writes := by
  rw [List.filterMap_map]
  exact List.filterMap_some

theorem reads_append (address : UInt16) (first second : List UInt8) :
    reads address (first ++ second) =
      reads address first ++ reads (address + UInt16.ofNat first.length) second := by
  induction first generalizing address with
  | nil => exact congrArg (reads · second) (UInt16.add_zero address).symm
  | cons byte first inductionHypothesis =>
      have further : address + 1 + UInt16.ofNat first.length =
          address + UInt16.ofNat (first.length + 1) := by
        rw [UInt16.ofNat_add, UInt16.add_assoc, UInt16.add_comm 1]
        rfl
      rw [List.cons_append, reads, inductionHypothesis, further]
      rfl

end Access

/-! ## Tables -/

namespace Operand

/-- The addresses that an operand is at: none if it is a register. -/
def places (registers : Registers) : Operand -> List UInt16
  | memory => [registers.hl]
  | _ => []

/-- What is written when a byte is stored in an operand. -/
def stores (target : Operand) (registers : Registers) (byte : UInt8) : List (UInt16 × UInt8) :=
  (target.places registers).map fun address => (address, byte)

end Operand

namespace Registers

/-- The value of an operand.  What an instruction finds in memory is given. -/
def value (registers : Registers) (found : List UInt8) : Operand -> UInt8
  | .b => registers.b
  | .c => registers.c
  | .d => registers.d
  | .e => registers.e
  | .h => registers.h
  | .l => registers.l
  | .memory => found.headD 0
  | .a => registers.a

/-- What is written when a word goes to the stack. -/
def pushes (registers : Registers) (word : UInt16) : List (UInt16 × UInt8) :=
  [(registers.sp - 1, Word.high word), (registers.sp - 2, Word.low word)]

end Registers

namespace Operation

/-- The addresses that an operation reads behind its own bytes, in the order of the reads.
The bytes of its operand are given. -/
def sources (operation : Operation) (registers : Registers) (operand : List UInt8) :
    List UInt16 :=
  match operation, operand with
  | load _ source, _ | arithmetic _ source, _ | testBit _ source, _ => source.places registers
  | increment target, _ | decrement target, _ | shift _ target, _ | resetBit _ target, _
  | setBit _ target, _ => target.places registers
  | loadThrough pointer, _ => [registers.pointer pointer]
  | loadHigh, [low] => [highPage low]
  | loadHighC, _ => [highPage registers.c]
  | loadAbsolute, [low, high] => [Word.ofBytes high low]
  | pop _, _ | reti, _ => [registers.sp, registers.sp + 1]
  | ret condition, _ =>
      if condition.isMet registers then [registers.sp, registers.sp + 1] else []
  | _, _ => []

/-- The bytes that an operation writes and their addresses, in the order of the writes.
Given are the address behind the instruction, the bytes of the operand, and those that are
found at the sources. -/
def writes (operation : Operation) (registers : Registers) (behind : UInt16)
    (operand found : List UInt8) : List (UInt16 × UInt8) :=
  match operation, operand with
  | storeStackPointer, [low, high] =>
      [(Word.ofBytes high low, Word.low registers.sp),
        (Word.ofBytes high low + 1, Word.high registers.sp)]
  | push source, _ => registers.pushes (registers.stackPair source)
  | call condition, _ => if condition.isMet registers then registers.pushes behind else []
  | restart _, _ => registers.pushes behind
  | storeThrough pointer, _ => [(registers.pointer pointer, registers.a)]
  | storeAbsolute, [low, high] => [(Word.ofBytes high low, registers.a)]
  | storeHigh, [low] => [(highPage low, registers.a)]
  | storeHighC, _ => [(highPage registers.c, registers.a)]
  | load target source, _ => target.stores registers (registers.value found source)
  | loadByte target, [byte] => target.stores registers byte
  | increment target, _ => target.stores registers (registers.value found target + 1)
  | decrement target, _ => target.stores registers (registers.value found target - 1)
  | shift movement target, _ =>
      target.stores registers
        (movement.apply (registers.flag .carry) (registers.value found target)).1
  | resetBit index target, _ =>
      target.stores registers (registers.value found target &&& ~~~Registers.bitMask index)
  | setBit index target, _ =>
      target.stores registers (registers.value found target ||| Registers.bitMask index)
  | _, _ => []

/-- The operation that the bytes of an opcode stand for. -/
def ofCode? : List UInt8 -> Option Operation
  | [code] =>
      match Opcode.decode code with
      | .operation operation => some operation
      | _ => none
  | [code, selector] =>
      match Opcode.decode code with
      | .extended => some (decodeExtended selector)
      | _ => none
  | _ => none

/-- Neither the sources nor the writes depend on where the processor is. -/
theorem sources_setPc (operation : Operation) (registers : Registers) (pc : UInt16)
    (operand : List UInt8) :
    operation.sources { registers with pc := pc } operand =
      operation.sources registers operand := by
  cases operation with
  | ret condition => cases condition <;> rfl
  | _ => rfl

theorem writes_setPc (operation : Operation) (registers : Registers) (pc behind : UInt16)
    (operand found : List UInt8) :
    operation.writes { registers with pc := pc } behind operand found =
      operation.writes registers behind operand found := by
  cases operation with
  | call condition => cases condition <;> rfl
  | load target source => cases target <;> cases source <;> rfl
  | increment target | decrement target | shift movement target | resetBit index target
  | setBit index target => cases target <;> rfl
  | _ => rfl

/-- What an operation does on the bus behind its opcode, in order. -/
def accesses (operation : Operation) (registers : Registers) (operand found : List UInt8) :
    List Access :=
  Access.reads registers.pc operand ++
    List.zipWith .read (operation.sources registers operand) found ++
      (operation.writes registers (registers.pc + UInt16.ofNat operand.length) operand found).map
        .ofWrite

/-- An operation without an operand of its own has nothing to read before its sources. -/
theorem accesses_nil (operation : Operation) (registers : Registers) (found : List UInt8) :
    operation.accesses registers [] found =
      List.zipWith .read (operation.sources registers []) found ++
        (operation.writes registers registers.pc [] found).map .ofWrite := by
  have here : registers.pc + UInt16.ofNat ([] : List UInt8).length = registers.pc :=
    UInt16.add_zero registers.pc
  rw [accesses, here]
  rfl

end Operation

/-! ## Actions on a recorded memory -/

namespace Wired

variable {Memory : Type} [Bus Memory] (wired : Wired (Recorded Memory))

/-- What has been read and written so far, the latest access first. -/
def past {Memory : Type} (wired : Wired (Recorded Memory)) : List Access :=
  wired.memory.accesses

theorem past_readOperand (source : Operand) :
    ∃ found, found.length = (source.places wired.registers).length ∧
      (wired.readOperand source).1 = wired.registers.value found source ∧
      (wired.readOperand source).2.past =
        (List.zipWith Access.read (source.places wired.registers) found).reverse ++ wired.past := by
  cases source with
  | memory => exact ⟨[(wired.readByte wired.registers.hl).1], rfl, rfl, rfl⟩
  | _ => exact ⟨[], rfl, rfl, rfl⟩

theorem past_writeOperand (target : Operand) (byte : UInt8) :
    (wired.writeOperand target byte).past =
      ((target.stores wired.registers byte).map Access.ofWrite).reverse ++ wired.past := by
  cases target <;> rfl

theorem past_call (address : UInt16) :
    (wired.call address).past =
      ((wired.registers.pushes wired.registers.pc).map Access.ofWrite).reverse ++ wired.past :=
  rfl

/-- Storing a byte in the operand that was read is seen where the operand was, as long as HL
stays. -/
theorem past_update (source target : Operand) (change : Registers -> Registers)
    (same : (change wired.registers).hl = wired.registers.hl) (byte : UInt8) :
    (((wired.readOperand source).2.mapRegisters change).writeOperand target byte).past =
      ((target.stores wired.registers byte).map Access.ofWrite).reverse ++
        (wired.readOperand source).2.past := by
  have place : ((wired.readOperand source).2.mapRegisters change).registers.hl =
      wired.registers.hl := by
    change (change (wired.readOperand source).2.registers).hl = _
    rw [registers_readOperand, same]
  rw [past_writeOperand]
  cases target with
  | memory =>
      rw [Operand.stores, Operand.places, place]
      rfl
  | _ => rfl

/-- Between one state and another an operation was carried out, and the bus has seen what the
tables say of it. -/
structure Accessed {Memory : Type} (wired next : Wired (Recorded Memory)) (operation : Operation)
    (operand found : List UInt8) : Prop where
  sized : operand.length = operation.immediate.size
  answered : found.length = (operation.sources wired.registers operand).length
  past : next.past = (operation.accesses wired.registers operand found).reverse ++ wired.past

/-- An operation without an operand of its own that reads one byte first, if any. -/
theorem exists_accessed_of_source {next : Wired (Recorded Memory)} {operation : Operation}
    (source : Operand) (alone : operation.immediate.size = 0)
    (reads : operation.sources wired.registers [] = source.places wired.registers)
    (past : ∀ found, (wired.readOperand source).1 = wired.registers.value found source ->
      next.past =
        ((operation.writes wired.registers wired.registers.pc [] found).map Access.ofWrite).reverse
          ++ (wired.readOperand source).2.past) :
    ∃ operand found, Accessed wired next operation operand found := by
  rcases wired.past_readOperand source with ⟨found, answered, value, before⟩
  refine ⟨[], found, alone.symm, ?_, ?_⟩
  · rw [answered, reads]
  · rw [past found value, before, Operation.accesses_nil, reads, List.reverse_append,
      List.append_assoc]

/-- An operation without an operand of its own that stores a byte where it has read one, or
elsewhere. -/
theorem exists_accessed_of_update {next : Wired (Recorded Memory)} {operation : Operation}
    (source target : Operand) (change : Registers -> Registers) (compute : UInt8 -> UInt8)
    (alone : operation.immediate.size = 0)
    (reads : operation.sources wired.registers [] = source.places wired.registers)
    (writes : ∀ found, operation.writes wired.registers wired.registers.pc [] found =
      target.stores wired.registers (compute (wired.registers.value found source)))
    (same : (change wired.registers).hl = wired.registers.hl)
    (updated : next = ((wired.readOperand source).2.mapRegisters change).writeOperand target
      (compute (wired.readOperand source).1)) :
    ∃ operand found, Accessed wired next operation operand found := by
  refine wired.exists_accessed_of_source source alone reads fun found value => ?_
  rw [writes, ← value, updated]
  exact wired.past_update source target change same _

/-- What the tables say of an operation is what its execution does. -/
theorem accessed_execute (operation : Operation) :
    ∃ operand found, Accessed wired (wired.execute operation) operation operand found := by
  cases operation with
  | nop | halt | disableInterrupts | enableInterrupts | storeHighC | push source
  | incrementPair target | decrementPair target | addPair source | loadStackPointer
  | rotateA rotation | decimalAdjust | complement | setCarry | complementCarry | jumpHl
  | storeThrough pointer =>
      exact ⟨[], [], rfl, rfl, rfl⟩
  | stop | storeHigh | loadStackOffset | addStackOffset | arithmeticByte arithmetic =>
      exact ⟨[wired.fetchByte.1], [], rfl, rfl, rfl⟩
  | loadWord target | storeAbsolute | storeStackPointer =>
      exact ⟨[wired.fetchByte.1, wired.fetchByte.2.fetchByte.1], [], rfl, rfl, rfl⟩
  | loadThrough pointer =>
      exact ⟨[], [(wired.readByte (wired.registers.pointer pointer)).1], rfl, rfl, rfl⟩
  | loadHigh =>
      exact ⟨[wired.fetchByte.1], [(wired.fetchByte.2.readByte (highPage wired.fetchByte.1)).1],
        rfl, rfl, rfl⟩
  | loadHighC => exact ⟨[], [(wired.readByte (highPage wired.registers.c)).1], rfl, rfl, rfl⟩
  | loadAbsolute =>
      exact ⟨[wired.fetchByte.1, wired.fetchByte.2.fetchByte.1],
        [(wired.fetchWord.2.readByte wired.fetchWord.1).1], rfl, rfl, rfl⟩
  | pop target | reti =>
      let low := wired.readByte wired.registers.sp
      exact ⟨[], [low.1, (low.2.readByte (wired.registers.sp + 1)).1], rfl, rfl, rfl⟩
  | loadByte target =>
      refine ⟨[wired.fetchByte.1], [], rfl, rfl, ?_⟩
      rw [execute, past_writeOperand]
      cases target <;> rfl
  | load target source =>
      exact wired.exists_accessed_of_update source target id id rfl rfl (fun _ => rfl) rfl rfl
  | arithmetic arithmetic source | testBit index source =>
      exact wired.exists_accessed_of_source source rfl rfl fun _ _ => rfl
  | increment target =>
      exact wired.exists_accessed_of_update target target
        (fun registers => registers.flagIncrement (wired.readOperand target).1) (· + 1)
        rfl rfl (fun _ => rfl) rfl rfl
  | decrement target =>
      exact wired.exists_accessed_of_update target target
        (fun registers => registers.flagDecrement (wired.readOperand target).1) (· - 1)
        rfl rfl (fun _ => rfl) rfl rfl
  | resetBit index target =>
      exact wired.exists_accessed_of_update target target id (· &&& ~~~Registers.bitMask index)
        rfl rfl (fun _ => rfl) rfl rfl
  | setBit index target =>
      exact wired.exists_accessed_of_update target target id (· ||| Registers.bitMask index)
        rfl rfl (fun _ => rfl) rfl rfl
  | shift movement target =>
      refine wired.exists_accessed_of_update target target
        (fun _ => (wired.registers.shift movement (wired.readOperand target).1).2)
        (fun byte => (movement.apply (wired.registers.flag .carry) byte).1)
        rfl rfl (fun _ => rfl) rfl ?_
      rw [execute, registers_readOperand]
      rfl
  | jumpRelative condition =>
      refine ⟨[wired.fetchByte.1], [], rfl, rfl, ?_⟩
      rw [execute]
      split <;> rfl
  | jump condition =>
      refine ⟨[wired.fetchByte.1, wired.fetchByte.2.fetchByte.1], [], rfl, rfl, ?_⟩
      rw [execute]
      split <;> rfl
  | call condition =>
      refine ⟨[wired.fetchByte.1, wired.fetchByte.2.fetchByte.1], [], rfl, ?_, ?_⟩
      · rfl
      · rw [execute, isMet_fetchWord, Operation.accesses, Operation.writes]
        cases condition.isMet wired.registers with
        | false => rfl
        | true =>
            change (wired.fetchWord.2.call wired.fetchWord.1).past = _
            rw [past_call, pc_fetchWord]
            rfl
  | ret condition =>
      cases met : condition.isMet wired.registers with
      | false =>
          refine ⟨[], [], rfl, ?_, ?_⟩
          · rw [Operation.sources, met]
            rfl
          · rw [execute, Operation.accesses, Operation.sources, met]
            rfl
      | true =>
          let low := wired.readByte wired.registers.sp
          refine ⟨[], [low.1, (low.2.readByte (wired.registers.sp + 1)).1], rfl, ?_, ?_⟩
          · rw [Operation.sources, met]
            rfl
          · rw [execute, Operation.accesses, Operation.sources, met]
            rfl
  | restart index =>
      refine ⟨[], [], rfl, rfl, ?_⟩
      rw [Operation.accesses_nil]
      rfl

/-! ## Steps -/

/-- Decoding reads the bytes of an opcode, one behind the other, and nothing else. -/
theorem exists_opcode_of_decoded {wired fetched : Wired (Recorded Memory)}
    {operation : Operation} (decoded : wired.decoded? = some (operation, fetched)) :
    ∃ opcode, Operation.ofCode? opcode = some operation ∧
      opcode.length + operation.immediate.size = operation.length ∧
      fetched.registers = { wired.registers with
        pc := wired.registers.pc + UInt16.ofNat opcode.length } ∧
      fetched.past = (Access.reads wired.registers.pc opcode).reverse ++ wired.past := by
  by_cases idle : wired.cpu.isIdle = true
  · rw [decoded?, if_pos idle] at decoded
    cases decoded
  · rw [decoded?, if_neg idle] at decoded
    cases same : Opcode.decode wired.fetchByte.1 with
    | operation operation =>
        simp only [same] at decoded
        cases decoded
        refine ⟨[wired.fetchByte.1], ?_, ?_, rfl, rfl⟩
        · rw [Operation.ofCode?, same]
        · rw [Operation.length, Operation.isExtended_of_decode same]
          rfl
    | extended =>
        simp only [same] at decoded
        cases decoded
        let selector := wired.fetchByte.2.fetchByte
        rcases Operation.length_decodeExtended selector.1 with ⟨length, absent⟩
        refine ⟨[wired.fetchByte.1, selector.1], ?_, ?_, ?_, rfl⟩
        · rw [Operation.ofCode?, same]
        · rw [length, absent]
          rfl
        · change { wired.registers with pc := wired.registers.pc + 1 + 1 } = _
          rw [add_one_add_one]
          rfl
    | undefined =>
        simp only [same] at decoded
        cases decoded

end Wired

/-- What is decoded is the same on either side of a view. -/
theorem BusView.decoded?_wired {First Second : Type} [Bus First] [Bus Second]
    (view : BusView First Second) (wired : Wired First) :
    (view.wired wired).decoded? =
      wired.decoded?.map fun decoded => (decoded.1, view.wired decoded.2) := by
  have fetch (wired : Wired First) :
      (view.wired wired).fetchByte = (wired.fetchByte.1, view.wired wired.fetchByte.2) := by
    have fetched : view.always.Valid wired.fetchByte.2 := trivial
    exact PartialView.fetchByte_wired fetched
  have cpu : (view.wired wired).cpu = wired.cpu := rfl
  rw [Wired.decoded?, Wired.decoded?, cpu]
  by_cases idle : wired.cpu.isIdle = true
  · rw [if_pos idle, if_pos idle]
    rfl
  · rw [if_neg idle, if_neg idle]
    cases same : Opcode.decode wired.fetchByte.1 with
    | operation operation | extended | undefined =>
        simp only [fetch, same]
        rfl

namespace Wired

section Step

variable {Memory : Type} [Bus Memory] {wired : Wired Memory} {operation : Operation}

/-- What is decoded is decoded on a recorded memory as well. -/
theorem exists_decoded_recorded {fetched : Wired Memory}
    (decoded : wired.decoded? = some (operation, fetched)) :
    ∃ seen, wired.recorded.decoded? = some (operation, seen) ∧
      Recorded.view.wired seen = fetched := by
  have same : wired.decoded? = _ := Recorded.view.decoded?_wired wired.recorded
  rw [same] at decoded
  rcases Option.map_eq_some_iff.mp decoded with ⟨⟨first, seen⟩, recorded, found⟩
  cases found
  exact ⟨seen, recorded, rfl⟩

/-- A step carries out an operation, and does on the bus what the tables say of it.  Given
are the bytes that the step reads: those of the opcode, those of the operand behind it, and
those at the sources of the operation. -/
structure Performs (wired : Wired Memory) (operation : Operation)
    (opcode operand found : List UInt8) : Prop where
  code : Operation.ofCode? opcode = some operation
  sized : operand.length = operation.immediate.size
  length : opcode.length + operand.length = operation.length
  answered : found.length = (operation.sources wired.registers operand).length
  order : wired.stepAccesses.reverse =
    Access.reads wired.registers.pc (opcode ++ operand) ++
      List.zipWith .read (operation.sources wired.registers operand) found ++
        (operation.writes wired.registers
          (wired.registers.pc + UInt16.ofNat operation.length) operand found).map .ofWrite

theorem exists_performs (defined : wired.operation? = some operation) :
    ∃ opcode operand found, Performs wired operation opcode operand found := by
  rcases Option.map_eq_some_iff.mp defined with ⟨⟨operation, behind⟩, found, rfl⟩
  rcases exists_decoded_recorded found with ⟨fetched, decoded, -⟩
  rcases exists_opcode_of_decoded decoded with ⟨opcode, code, length, registers, past⟩
  let unarmed : Wired (Recorded Memory) :=
    { fetched with cpu := { fetched.cpu with enablePending := false } }
  rcases unarmed.accessed_execute operation with ⟨operand, found, sized, answered, executed⟩
  have behind : wired.registers.pc + UInt16.ofNat opcode.length + UInt16.ofNat operand.length =
      wired.registers.pc + UInt16.ofNat operation.length := by
    rw [UInt16.add_assoc, ← UInt16.ofNat_add, sized, length]
  have start : unarmed.registers = { wired.registers with
      pc := wired.registers.pc + UInt16.ofNat opcode.length } := registers
  have before : unarmed.past = (Access.reads wired.registers.pc opcode).reverse ++ [] := past
  have stepped : wired.stepAccesses = (unarmed.execute operation).past := by
    rw [stepAccesses, step_of_decoded decoded]
    rfl
  rw [start, Operation.sources_setPc] at answered
  refine ⟨opcode, operand, found, code, sized, by rw [sized, length], answered, ?_⟩
  rw [stepped, executed, before, start, Operation.accesses, Operation.sources_setPc,
    Operation.writes_setPc, behind, Access.reads_append]
  simp only [List.reverse_append, List.reverse_reverse, List.append_nil, List.append_assoc]

/-- The writes of a step are those that the table has for its operation. -/
theorem Performs.stepWrites {opcode operand found : List UInt8}
    (performs : Performs wired operation opcode operand found) :
    wired.stepWrites = operation.writes wired.registers
      (wired.registers.pc + UInt16.ofNat operation.length) operand found := by
  change wired.stepAccesses.reverse.filterMap Access.written? = _
  rw [performs.order, List.filterMap_append, List.filterMap_append, Access.filterMap_reads,
    Access.filterMap_zipWith_read, Access.filterMap_ofWrite, List.nil_append, List.nil_append]

end Step

/-- A program that stores the stack pointer at the end of the address space. -/
def spillProgram : Wired Board :=
  { cpu := { Cpu.afterBoot with
      registers := { Registers.afterBoot with pc := 0xC000, sp := 0xABCD } }
    memory := (Board.empty .green).setAll 0xC000 [0x08, 0xFF, 0xFF] }

end Wired

end Dmg
