import Dmg.Proofs.Cpu.Branch
import Dmg.Cpu.Disassembly
import Dmg.Memory.Flat
import Dmg.Text.Numeral
import Mathlib.Algebra.Group.Nat.Defs

/-!
# A listing and the processor

A listing and the processor read the same bytes, each on its own.  The listing finds
the length of an instruction in a table and works out where a branch leads; the
processor fetches byte after byte and then goes where it goes.  They agree about
every instruction: on whether it is one, on where the next one is, on where a branch
leads and on what a call leaves on the stack.
-/

namespace Dmg

/-! ## Digits -/

namespace Text

theorem digitValue?_hexDigit {value : Nat} (below : value < 16) :
    digitValue? 16 (hexDigit value) = some value := by
  have digits : ∀ value : Fin 16, digitValue? 16 (hexDigit value.val) = some value.val := by decide
  exact digits ⟨value, below⟩

/-- The digits that are written for a value are read as that value. -/
theorem readDigits_hexDigits {limit width value : Nat} (start : Nat) (rest : List Char)
    (fits : value < 16 ^ width) (within : start * 16 ^ width + value <= limit) :
    readDigits 16 limit start (hexDigits width value ++ rest) =
      readDigits 16 limit (start * 16 ^ width + value) rest := by
  induction width generalizing value rest with
  | zero =>
      rw [Nat.pow_zero, Nat.lt_one_iff] at fits
      rw [fits, Nat.pow_zero, Nat.mul_one]
      rfl
  | succ width inductionHypothesis =>
      rw [Nat.pow_succ, ← Nat.mul_assoc] at within
      have extended : (start * 16 ^ width + value / 16) * 16 + value % 16 =
          start * 16 ^ (width + 1) + value := by
        rw [Nat.pow_succ, ← Nat.mul_assoc]
        omega
      rw [hexDigits, List.append_assoc,
        inductionHypothesis _ (by rw [Nat.pow_succ] at fits; omega) (by omega),
        List.singleton_append, readDigits, digitValue?_hexDigit (Nat.mod_lt _ (by decide))]
      dsimp only
      rw [extended, if_neg]
      rw [Nat.pow_succ, ← Nat.mul_assoc]
      omega

theorem readDigits_hexWord (word : UInt16) :
    readDigits 16 0xFFFF 0 (hexWord word).toList = .ok word.toNat := by
  have bound := word.toNat_lt
  have read : readDigits 16 0xFFFF 0 (hexDigits 4 word.toNat ++ []) =
      readDigits 16 0xFFFF (0 * 16 ^ 4 + word.toNat) [] :=
    readDigits_hexDigits 0 [] bound (by omega)
  rw [List.append_nil, Nat.zero_mul, Nat.zero_add] at read
  rw [hexWord, String.toList_ofList]
  exact read

end Text

/-! ## What a line says -/

namespace Disassembly

/-- Whether a line shows a byte that begins no instruction. -/
def isData (line : Disassembly) : Bool :=
  line.text.toList.take 2 == ['D', 'B']

/-- The address that a line shows in its last four characters. -/
def target? (line : Disassembly) : Option UInt16 :=
  match line.text.toList.drop (line.text.toList.length - 5) with
  | '$' :: digits =>
      match Text.readDigits 16 0xFFFF 0 digits with
      | .ok value => some (UInt16.ofNat value)
      | .error _ => none
  | _ => none

theorem target?_eq_some {line : Disassembly} {lead : String} {target : UInt16}
    (text : line.text = lead ++ ("$" ++ Text.hexWord target)) : line.target? = some target := by
  have characters : line.text.toList = lead.toList ++ '$' :: (Text.hexWord target).toList := by
    rw [text, String.toList_append, String.toList_append]
    rfl
  have width : (Text.hexWord target).toList.length = 4 := by
    rw [Text.hexWord, String.toList_ofList, Text.length_hexDigits]
  have last : line.text.toList.drop (line.text.toList.length - 5) =
      '$' :: (Text.hexWord target).toList := by
    rw [characters, List.length_append, List.length_cons, width]
    exact List.drop_left
  rw [target?, last]
  simp only [Text.readDigits_hexWord]
  exact congrArg some (UInt16.ofNat_toNat)

end Disassembly

namespace Operation

/-- No operation is written as data is. -/
theorem take_text_ne (operation : Operation) (operand : String) :
    (operation.text operand).toList.take 2 ≠ ['D', 'B'] := by
  cases operation with
  | arithmetic combined source => cases combined <;> simp [text, Arithmetic.lead]
  | arithmeticByte combined => cases combined <;> simp [text, Arithmetic.lead]
  | rotateA rotation => cases rotation <;> simp [text, Rotation.name]
  | ret condition => cases condition <;> simp [text]
  | shift movement target =>
      cases movement with
      | rotate rotation => cases rotation <;> simp [text, Shift.name, Rotation.name]
      | _ => simp [text, Shift.name]
  | _ => simp [text]

/-- The address that a branch names in its operand, which is at the given address. -/
def target? (operation : Operation) (read : UInt16 -> UInt8) (address : UInt16) :
    Option UInt16 :=
  match operation with
  | jumpRelative _ => some (address + 1 + Displacement.toWord (read address))
  | jump _ | call _ => some (Word.ofBytes (read (address + 1)) (read address))
  | _ => none

/-- Whether a branch names where it leads. -/
def namesTarget : Operation -> Bool
  | jumpRelative _ | jump _ | call _ => true
  | _ => false

/-- Whether a branch leaves on the stack where it came from. -/
def isCall : Operation -> Bool
  | call _ | restart _ => true
  | _ => false

theorem exists_guard_eq (condition : Condition) (operand : String) :
    ∃ lead, condition.guard operand = lead ++ operand := by
  cases condition with
  | always => exact ⟨"", (String.empty_append).symm⟩
  | nonZero | zero | noCarry | carry => exact ⟨_, rfl⟩

/-- A branch that names where it leads is written with that address at its end. -/
theorem exists_text_eq_of_target {operation : Operation} {read : UInt16 -> UInt8}
    {address target : UInt16} (named : operation.target? read address = some target) :
    ∃ lead, operation.text (operation.immediate.render read address) =
      lead ++ ("$" ++ Text.hexWord target) := by
  have guarded (word : String) (condition : Condition) :
      ∃ lead, word ++ condition.guard ("$" ++ Text.hexWord target) =
        lead ++ ("$" ++ Text.hexWord target) := by
    rcases exists_guard_eq condition ("$" ++ Text.hexWord target) with ⟨lead, same⟩
    exact ⟨word ++ lead, by rw [same, String.append_assoc]⟩
  cases operation with
  | jumpRelative condition =>
      cases named
      exact guarded "JR " condition
  | jump condition =>
      cases named
      exact guarded "JP " condition
  | call condition =>
      cases named
      exact guarded "CALL " condition
  | _ => cases named

theorem isExtended_of_decode {code : UInt8} {operation : Operation}
    (decoded : Opcode.decode code = .operation operation) : operation.isExtended = false := by
  have first : ∀ row column, (Opcode.firstQuarter row column).isExtended = false := by decide
  rw [Opcode.decode] at decoded
  split at decoded
  · cases decoded
    exact first _ _
  · split at decoded <;> cases decoded <;> rfl
  · cases decoded
    rfl
  · rw [Opcode.lastQuarter.eq_def] at decoded
    split at decoded <;> cases decoded <;> rfl

/-- An operation that is decoded from a second byte has no operand behind it. -/
theorem length_decodeExtended (code : UInt8) :
    (decodeExtended code).length = 2 ∧ (decodeExtended code).immediate = .absent := by
  rw [decodeExtended]
  split <;> exact ⟨rfl, rfl⟩

end Operation

/-! ## What a bus does -/

namespace Bus

/-- Reading changes nothing. -/
def IsQuiet (Memory : Type) [Bus Memory] : Prop :=
  ∀ (memory : Memory) address, (read memory address).2 = memory

/-- A byte that is written is read again, and every other byte stays what it was. -/
def Stores (Memory : Type) [Bus Memory] : Prop :=
  ∀ (memory : Memory) written address byte,
    (read (write memory written byte) address).1 =
      if written = address then byte else (read memory address).1

end Bus

namespace Wired

variable {Memory : Type} [Bus Memory]

def peek (wired : Wired Memory) (address : UInt16) : UInt8 :=
  (Bus.read wired.memory address).1

/-- The line of a listing at the program counter. -/
def line (wired : Wired Memory) : Disassembly :=
  Disassembly.lineAt wired.peek wired.registers.pc

theorem add_one_add_one (address : UInt16) : address + 1 + 1 = address + 2 :=
  UInt16.add_assoc address 1 1

section Quiet

variable (quiet : Bus.IsQuiet Memory) (wired : Wired Memory)
include quiet

theorem fetchByte_eq : wired.fetchByte =
    (wired.peek wired.registers.pc, wired.jump (wired.registers.pc + 1)) := by
  rw [fetchByte, readByte, quiet wired.memory]
  rfl

theorem fetchWord_eq : wired.fetchWord =
    (Word.ofBytes (wired.peek (wired.registers.pc + 1)) (wired.peek wired.registers.pc),
      wired.jump (wired.registers.pc + 2)) := by
  rw [fetchWord, fetchByte_eq quiet wired, fetchByte_eq quiet, ← add_one_add_one]
  rfl

end Quiet

/-- An operation as a listing shows it, and the processor when it has fetched the
opcode. -/
structure Listed (wired fetched : Wired Memory) (operation : Operation) : Prop where
  line : wired.line = Disassembly.ofOperation wired.peek wired.registers.pc
    fetched.registers.pc operation
  memory : fetched.memory = wired.memory
  /-- The line is as long as the opcode and the operand that is still to be
  fetched. -/
  behind : fetched.registers.pc + UInt16.ofNat operation.immediate.size =
    wired.registers.pc + UInt16.ofNat operation.length

theorem listed_of_decoded (quiet : Bus.IsQuiet Memory) {wired fetched : Wired Memory}
    {operation : Operation} (decoded : wired.decoded? = some (operation, fetched)) :
    Listed wired fetched operation := by
  by_cases idle : wired.cpu.isIdle = true
  · rw [decoded?, if_pos idle] at decoded
    cases decoded
  rw [decoded?, if_neg idle, fetchByte_eq quiet] at decoded
  dsimp only at decoded
  split at decoded
  · next found same =>
    cases decoded
    refine ⟨?_, rfl, ?_⟩
    · rw [line, Disassembly.lineAt, same]
      rfl
    · rw [Operation.length, Operation.isExtended_of_decode same, UInt16.ofNat_add]
      exact UInt16.add_assoc _ _ _
  · next same =>
    rw [fetchByte_eq quiet] at decoded
    cases decoded
    refine ⟨?_, rfl, ?_⟩
    · rw [line, Disassembly.lineAt, same, ← add_one_add_one]
      rfl
    · rw [(Operation.length_decodeExtended _).1, (Operation.length_decodeExtended _).2]
      exact (UInt16.add_zero _).trans (add_one_add_one _)
  · cases decoded

/-- Without a meaning the byte at the program counter is shown as data, and the step
fails and leaves everything as it was. -/
theorem isData_of_undefined (quiet : Bus.IsQuiet Memory) {wired : Wired Memory}
    (running : wired.cpu.isIdle = false) (none : wired.decoded? = none) :
    wired.line.isData = true ∧
      wired.step = (.error ⟨wired.peek wired.registers.pc, wired.registers.pc⟩, wired) := by
  have busy : ¬ wired.cpu.isIdle = true := Bool.eq_false_iff.mp running
  rw [decoded?, if_neg busy, fetchByte_eq quiet] at none
  rw [step, if_neg busy, fetchByte_eq quiet]
  dsimp only at none ⊢
  split at none
  · cases none
  · cases none
  · next same =>
    rw [line, Disassembly.lineAt, same]
    exact ⟨by simp [Disassembly.isData], rfl⟩

/-! ## Branches -/

section Branch

variable (quiet : Bus.IsQuiet Memory) {wired : Wired Memory} {operation : Operation}
include quiet

/-- A branch that is taken goes on at the address that its operand names. -/
theorem pc_execute_of_target (taken : operation.isTaken wired.registers = true) {target : UInt16}
    (named : operation.target? wired.peek wired.registers.pc = some target) :
    (wired.execute operation).registers.pc = target := by
  cases operation with
  | jumpRelative condition =>
      have met : condition.isMet wired.registers = true := taken
      cases named
      rw [execute, isMet_fetchByte, met, fetchByte_eq quiet]
      rfl
  | jump condition
  | call condition =>
      have met : condition.isMet wired.registers = true := taken
      cases named
      rw [execute, isMet_fetchWord, met, fetchWord_eq quiet]
      rfl
  | _ => cases named

/-- A call stores the address behind its operand below the stack pointer, the high byte
first. -/
theorem execute_of_isCall (taken : operation.isTaken wired.registers = true)
    (call : operation.isCall = true) :
    (wired.execute operation).registers.sp = wired.registers.sp - 2 ∧
      (wired.execute operation).memory =
        let back := wired.registers.pc + UInt16.ofNat operation.immediate.size
        Bus.write (Bus.write wired.memory (wired.registers.sp - 1) (Word.high back))
          (wired.registers.sp - 2) (Word.low back) := by
  cases operation with
  | call condition =>
      have met : condition.isMet wired.registers = true := taken
      rw [execute, isMet_fetchWord, met, fetchWord_eq quiet]
      exact ⟨rfl, rfl⟩
  | restart index =>
      have here : wired.registers.pc + UInt16.ofNat (Operation.restart index).immediate.size =
          wired.registers.pc := UInt16.add_zero _
      rw [here]
      exact ⟨rfl, rfl⟩
  | _ => cases call

end Branch

/-- A word that was pushed is found again. -/
theorem readWord_of_pushed (quiet : Bus.IsQuiet Memory) (stores : Bus.Stores Memory)
    (memory : Memory) (sp word : UInt16) :
    (Bus.readWord (Bus.write (Bus.write memory (sp - 1) (Word.high word)) (sp - 2)
      (Word.low word)) (sp - 2)).1 = word := by
  have next : sp - 2 + 1 = sp - 1 := by grind
  have apart : sp - 2 ≠ sp - 1 := by grind
  rw [Bus.readWord, quiet, next]
  dsimp only
  rw [stores _ (sp - 2) (sp - 2), if_pos rfl, stores _ (sp - 2), if_neg apart, stores, if_pos rfl,
    Word.ofBytes_high_low]

/-! ## Every instruction -/

/-- What a step that succeeds has to do with the line that a listing shows. -/
structure Follows (wired next : Wired Memory) (operation : Operation) (line : Disassembly) :
    Prop where
  /-- Unless a branch is taken, the processor goes on behind the line. -/
  behind : operation.isTaken wired.registers = false ->
    next.registers.pc = wired.registers.pc + UInt16.ofNat line.length
  /-- A branch that is taken goes on at the address that the line shows. -/
  target : operation.isTaken wired.registers = true -> operation.namesTarget = true ->
    line.target? = some next.registers.pc
  /-- A call stores the address behind the line. -/
  pushed : operation.isTaken wired.registers = true -> operation.isCall = true ->
    next.registers.sp = wired.registers.sp - 2 ∧
      next.memory =
        let back := wired.registers.pc + UInt16.ofNat line.length
        Bus.write (Bus.write wired.memory (wired.registers.sp - 1) (Word.high back))
          (wired.registers.sp - 2) (Word.low back)
  /-- On a bus that stores bytes the address is found on the stack. -/
  kept : Bus.Stores Memory -> operation.isTaken wired.registers = true ->
    operation.isCall = true ->
    (Bus.readWord next.memory next.registers.sp).1 =
      wired.registers.pc + UInt16.ofNat line.length

theorem exists_target_of_namesTarget {operation : Operation} (names : operation.namesTarget = true)
    (read : UInt16 -> UInt8) (address : UInt16) :
    ∃ target, operation.target? read address = some target := by
  cases operation with
  | jumpRelative condition | jump condition | call condition => exact ⟨_, rfl⟩
  | _ => cases names

theorem follows_of_decoded (quiet : Bus.IsQuiet Memory) {wired fetched : Wired Memory}
    {operation : Operation} (decoded : wired.decoded? = some (operation, fetched)) :
    Follows wired (fetched.perform operation) operation wired.line := by
  rcases listed_of_decoded quiet decoded with ⟨line, memory, behind⟩
  have registers := registers_of_decoded decoded
  let unarmed : Wired Memory := { fetched with cpu := { fetched.cpu with enablePending := false } }
  have taken : operation.isTaken unarmed.registers = operation.isTaken wired.registers :=
    Operation.isTaken_congr (congrArg Registers.f registers) operation
  have peek : unarmed.peek = wired.peek := by
    funext address
    exact congrArg (fun memory => (Bus.read memory address).1) memory
  have sp : unarmed.registers.sp = wired.registers.sp := (congrArg Registers.sp registers :)
  have length : wired.line.length = operation.length := congrArg Disassembly.length line
  have pushed (leaves : operation.isTaken wired.registers = true)
      (call : operation.isCall = true) :
      (unarmed.execute operation).registers.sp = wired.registers.sp - 2 ∧
        (unarmed.execute operation).memory =
          Bus.write (Bus.write wired.memory (wired.registers.sp - 1)
            (Word.high (wired.registers.pc + UInt16.ofNat wired.line.length)))
            (wired.registers.sp - 2)
            (Word.low (wired.registers.pc + UInt16.ofNat wired.line.length)) := by
    rw [length, ← behind, ← sp, ← memory]
    exact execute_of_isCall quiet (taken.trans leaves) call
  refine ⟨?_, ?_, pushed, ?_⟩
  · intro falls
    rw [length, ← behind]
    exact pc_execute_of_not_taken unarmed (taken.trans falls)
  · intro leaves names
    rcases exists_target_of_namesTarget names wired.peek fetched.registers.pc with ⟨target, named⟩
    rcases Operation.exists_text_eq_of_target named with ⟨lead, text⟩
    have reached : (unarmed.execute operation).registers.pc = target :=
      pc_execute_of_target quiet (taken.trans leaves) (by rw [peek]; exact named)
    change wired.line.target? = some (unarmed.execute operation).registers.pc
    rw [reached]
    exact Disassembly.target?_eq_some ((congrArg Disassembly.text line).trans text)
  · intro stores leaves call
    rcases pushed leaves call with ⟨pointer, stored⟩
    change (Bus.readWord (unarmed.execute operation).memory
      (unarmed.execute operation).registers.sp).1 = _
    rw [pointer, stored]
    exact readWord_of_pushed quiet stores _ _ _

/-- A listing and the processor agree about every instruction that the processor
fetches.  A line that shows a byte as data stands for a step that fails and changes
nothing, and any other line for a step that succeeds and goes where the line says. -/
theorem step_agrees_with_line (quiet : Bus.IsQuiet Memory) {wired : Wired Memory}
    (running : wired.cpu.isIdle = false) :
    (wired.line.isData = true -> ∃ failure, wired.step = (.error failure, wired)) ∧
    (wired.line.isData = false -> ∃ operation timing next,
      wired.operation? = some operation ∧ wired.step = (.ok timing, next) ∧
        Follows wired next operation wired.line) := by
  rcases decoded : wired.decoded? with none | ⟨operation, fetched⟩
  · rcases isData_of_undefined quiet running decoded with ⟨data, failed⟩
    refine ⟨fun _ => ⟨_, failed⟩, fun code => ?_⟩
    rw [data] at code
    cases code
  · have code : wired.line.isData = false := by
      rw [(listed_of_decoded quiet decoded).line]
      exact beq_false_of_ne (operation.take_text_ne _)
    refine ⟨fun data => ?_, fun _ => ⟨operation, _, _, ?_, step_of_decoded decoded,
      follows_of_decoded quiet decoded⟩⟩
    · rw [code] at data
      cases data
    · rw [operation?, decoded]
      rfl

/-- The board is such a bus. -/
theorem isQuiet_board : Bus.IsQuiet Board :=
  fun _ _ => rfl

theorem isQuiet_flatMemory : Bus.IsQuiet FlatMemory :=
  fun _ _ => rfl

theorem stores_flatMemory : Bus.Stores FlatMemory :=
  FlatMemory.get_set

/-- A call at the end of the addresses, with its operand at their beginning. -/
def wrappingCall : Wired FlatMemory where
  cpu := { Cpu.afterBoot with registers := { Registers.afterBoot with pc := 0xFFFF } }
  memory := (FlatMemory.filled 0).setAll 0xFFFF [0xCD, 0x34, 0x12]

theorem peek_wrappingCall : wrappingCall.peek = fun address =>
    if address = 1 then 0x12 else if address = 0 then 0x34 else if address = 0xFFFF then 0xCD
    else 0 := by
  funext address
  change FlatMemory.get _ address = _
  simp only [wrappingCall, FlatMemory.setAll, FlatMemory.get_set, FlatMemory.get_filled]
  simp [eq_comm]

/-- The listing shows where the call leads, and the call goes there and leaves the
address behind it on the stack. -/
theorem wrappingCall_follows_line :
    wrappingCall.cpu.isIdle = false ∧ wrappingCall.line = ⟨0xFFFF, 3, "CALL $1234"⟩ ∧
      wrappingCall.step.2.registers.pc = 0x1234 ∧
      (Bus.readWord wrappingCall.step.2.memory wrappingCall.step.2.registers.sp).1 = 0x0002 := by
  have running : wrappingCall.cpu.isIdle = false := rfl
  have line : wrappingCall.line = ⟨0xFFFF, 3, "CALL $1234"⟩ := by
    rw [Wired.line, peek_wrappingCall]
    decide
  have call : wrappingCall.operation? = some (.call .always) := by
    rw [operation?, decoded?, if_neg (by decide), fetchByte_eq isQuiet_flatMemory,
      peek_wrappingCall]
    rfl
  have code : wrappingCall.line.isData = false := by
    rw [line]
    decide
  rcases (step_agrees_with_line isQuiet_flatMemory running).2 code with
    ⟨operation, timing, next, decoded, stepped, follows⟩
  rw [call] at decoded
  cases decoded
  rw [line] at follows
  rw [stepped]
  have target : some 0x1234 = some next.registers.pc := follows.target rfl rfl
  exact ⟨running, line, (Option.some.inj target).symm, follows.kept stores_flatMemory rfl rfl⟩

end Wired

end Dmg
