import Dmg.Proofs.Cpu.Spelling
import Mathlib.Data.List.Nodup

/-!
# Reading a line back

The text of a line tells the bytes that it stands for, save the one that is fetched and not
used.  What is left of the text without its operand is the form of an operation, and no two
instructions have one form.  Where the operation is known so is its operand, and with it the
bytes behind the opcode.

That the forms differ is a fact about the table, and checked on it.
-/

namespace Dmg

namespace Operation

/-- The instructions by number.  Those of one byte have that byte for a number, and those
behind the extending byte come after them. -/
def numbered? (number : Nat) : Option Operation :=
  if number < 256 then
    match Opcode.decode (UInt8.ofNat number) with
    | .operation operation => some operation
    | _ => none
  else some (decodeExtended (UInt8.ofNat (number - 256)))

/-- A number for a text, by its bytes. -/
def textNumber (text : String) : Nat :=
  text.toByteArray.data.toList.foldl (fun value byte => value * 256 + byte.toNat) 0

/-- A number for the form of an instruction.  What is no instruction keeps its own, which
is too small for any form. -/
def formNumber (number : Nat) : Nat :=
  match numbered? number with
  | some operation => textNumber (operation.text "")
  | none => number

/-- Numbers differ from each other when those that leave the same remainder do. -/
theorem nodup_of_remainders {numbers : List Nat} {divisor : Nat} (positive : 0 < divisor)
    (apart : ∀ remainder < divisor, (numbers.filter (· % divisor == remainder)).Nodup) :
    numbers.Nodup := by
  refine List.nodup_iff_count_le_one.mpr fun number => ?_
  have one := List.nodup_iff_count_le_one.mp (apart _ (Nat.mod_lt number positive)) number
  rwa [List.count_filter (p := (· % divisor == number % divisor)) (beq_self_eq_true _)] at one

/-- No two instructions have one form.  Only numbers with the same remainder are compared,
which saves most of the pairs. -/
theorem nodup_forms : ((List.range 512).map formNumber).Nodup :=
  nodup_of_remainders (by decide : 0 < 31) (by decide +kernel)

theorem numbered?_injective {first second : Nat} {one other : Operation} (firstFits : first < 512)
    (secondFits : second < 512) (found : numbered? first = some one)
    (otherFound : numbered? second = some other) (same : one.text "" = other.text "") :
    first = second := by
  refine List.inj_on_of_nodup_map nodup_forms (List.mem_range.mpr firstFits)
    (List.mem_range.mpr secondFits) ?_
  rw [formNumber, formNumber, found, otherFound]
  exact congrArg textNumber same

/-- A byte that is fetched and not used is behind one operation only. -/
theorem eq_stop_of_padding {operation : Operation} (padding : operation.immediate = .padding) :
    operation = .stop := by
  cases operation with
  | stop => rfl
  | _ => cases padding

theorem isExtended_decodeExtended (code : UInt8) : (decodeExtended code).isExtended = true := by
  rw [decodeExtended]
  split <;> rfl

end Operation

theorem Opcode.eq_of_extended {code : UInt8} (decoded : Opcode.decode code = .extended) :
    code = 0xCB := by
  have only : ∀ value < 256, Opcode.decode (UInt8.ofNat value) = .extended -> value = 0xCB := by
    decide +kernel
  refine UInt8.toNat_inj.mp (only _ code.toNat_lt ?_)
  rw [UInt8.ofNat_toNat, decoded]

/-! ## Instructions in memory -/

namespace Disassembly

open Operation (numbered?)

variable {read other : UInt16 -> UInt8} {address : UInt16}

/-- The number of the instruction at an address. -/
def numberAt (read : UInt16 -> UInt8) (address : UInt16) : Nat :=
  match Opcode.decode (read address) with
  | .extended => 256 + (read (address + 1)).toNat
  | _ => (read address).toNat

theorem numberAt_lt : numberAt read address < 512 := by
  have first := (read address).toNat_lt
  have second := (read (address + 1)).toNat_lt
  rw [numberAt]
  split <;> omega

/-- The instruction at an address is an operation. -/
structure IsListed (read : UInt16 -> UInt8) (address : UInt16) (operation : Operation) : Prop where
  numbered : numbered? (numberAt read address) = some operation
  /-- The opcode takes one byte, or it takes two and nothing is behind it. -/
  opcode : Opcode.decode (read address) = .operation operation ∧ operation.isExtended = false ∨
    Opcode.decode (read address) = .extended ∧ operation.isExtended = true ∧
      operation.immediate = .absent
  line : lineAt read address =
    ofOperation read address (address + UInt16.ofNat (if operation.isExtended then 2 else 1))
      operation

theorem isListed_of_operation {operation : Operation}
    (decoded : Opcode.decode (read address) = .operation operation) :
    IsListed read address operation where
  numbered := by
    rw [numberAt, decoded, numbered?, if_pos (read address).toNat_lt, UInt8.ofNat_toNat, decoded]
  opcode := .inl ⟨decoded, Operation.isExtended_of_decode decoded⟩
  line := by
    rw [lineAt, decoded, Operation.isExtended_of_decode decoded]
    rfl

theorem isListed_of_extended (decoded : Opcode.decode (read address) = .extended) :
    IsListed read address (.decodeExtended (read (address + 1))) where
  numbered := by
    rw [numberAt, decoded]
    dsimp only
    rw [numbered?, if_neg (by omega), Nat.add_sub_cancel_left, UInt8.ofNat_toNat]
  opcode := .inr ⟨decoded, Operation.isExtended_decodeExtended _,
    (Operation.length_decodeExtended _).2⟩
  line := by
    rw [lineAt, decoded, Operation.isExtended_decodeExtended]
    rfl

theorem isData_or_isListed (read : UInt16 -> UInt8) (address : UInt16) :
    lineAt read address = ⟨address, 1, "DB $" ++ Text.hexByte (read address)⟩ ∨
      ∃ operation, IsListed read address operation := by
  cases decoded : Opcode.decode (read address) with
  | operation operation => exact .inr ⟨operation, isListed_of_operation decoded⟩
  | extended => exact .inr ⟨_, isListed_of_extended decoded⟩
  | undefined =>
      refine .inl ?_
      rw [lineAt, decoded]

/-- The bytes of an opcode are those of its number. -/
theorem eq_of_numberAt (same : numberAt other address = numberAt read address) :
    other address = read address ∧
      (Opcode.decode (read address) = .extended -> other (address + 1) = read (address + 1)) := by
  have first := (read address).toNat_lt
  have second := (other address).toNat_lt
  rw [numberAt, numberAt] at same
  split at same
  · next otherExtends =>
    split at same
    · next oneExtends =>
      refine ⟨(Opcode.eq_of_extended otherExtends).trans (Opcode.eq_of_extended oneExtends).symm,
        ?_⟩
      exact fun _ => UInt8.toNat_inj.mp (Nat.add_left_cancel same)
    · omega
  · split at same
    · omega
    · next alone => exact ⟨UInt8.toNat_inj.mp same, fun extended => absurd extended alone⟩

/-- Two memories with the same text at an address have one operation there. -/
theorem IsListed.eq_of_text {one two : Operation} (listed : IsListed read address one)
    (otherListed : IsListed other address two)
    (same : (lineAt other address).text = (lineAt read address).text) :
    numberAt other address = numberAt read address ∧ one = two := by
  rw [listed.line, otherListed.line, ofOperation, ofOperation] at same
  have forms := congrArg Text.form same
  rw [Operation.form_text, Operation.form_text, String.toList_inj] at forms
  have numbers := Operation.numbered?_injective numberAt_lt numberAt_lt otherListed.numbered
    listed.numbered forms
  have operations := otherListed.numbered
  rw [numbers, listed.numbered] at operations
  exact ⟨numbers, Option.some.inj operations⟩

theorem text_injective {operation : Operation} (shown : operation.immediate.isShown = true)
    {one two : String} (same : operation.text one = operation.text two) : one = two := by
  rcases Operation.exists_encloses shown with ⟨lead, trail, encloses⟩
  rw [encloses.text, encloses.text] at same
  exact (String.append_right_inj _).mp ((String.append_left_inj _).mp same)

/-- Two memories have the same bytes from an address on, but for the one behind the opcode
of STOP. -/
def SameBytes (read other : UInt16 -> UInt8) (address : UInt16) (length : Nat) : Prop :=
  ∀ index < length, index = 1 ∧ Opcode.decode (read address) = .operation .stop ∨
    other (address + UInt16.ofNat index) = read (address + UInt16.ofNat index)

theorem IsListed.sameBytes {operation : Operation} (listed : IsListed read address operation)
    (otherListed : IsListed other address operation)
    (numbers : numberAt other address = numberAt read address)
    (same : (lineAt other address).text = (lineAt read address).text) :
    SameBytes read other address operation.length := by
  rcases eq_of_numberAt numbers with ⟨first, second⟩
  rw [← UInt16.add_zero address] at first
  rw [listed.line, otherListed.line, ofOperation, ofOperation] at same
  intro index below
  rw [Operation.length] at below
  cases index with
  | zero => exact .inr first
  | succ index =>
      rcases listed.opcode with ⟨decoded, single⟩ | ⟨decoded, extended, absent⟩
      · rw [single, if_neg Bool.false_ne_true] at below same
        have inside : index < operation.immediate.size := by omega
        by_cases shown : operation.immediate.isShown = true
        · have bytes := Immediate.bytes_of_render shown (text_injective shown same) index inside
          rw [UInt16.ofNat_add, UInt16.add_comm (UInt16.ofNat index), ← UInt16.add_assoc]
          exact .inr bytes
        · rcases Immediate.size_of_hidden (Bool.eq_false_iff.mpr shown) with none | ⟨padding, one⟩
          · omega
          · rw [Operation.eq_stop_of_padding padding] at decoded
            exact .inl ⟨by omega, decoded⟩
      · rw [extended, absent, if_pos rfl] at below
        have next : index = 0 := Nat.lt_one_iff.mp (Nat.lt_of_succ_lt_succ below)
        rw [next]
        exact .inr (second decoded)

/-- The text of a line tells its length and its bytes. -/
theorem sameBytes_of_text (same : (lineAt other address).text = (lineAt read address).text) :
    (lineAt other address).length = (lineAt read address).length ∧
      SameBytes read other address (lineAt read address).length := by
  have apart {operation : Operation} {memory : UInt16 -> UInt8}
      (listed : IsListed memory address operation) (byte : UInt8)
      (equal : (lineAt memory address).text = "DB $" ++ Text.hexByte byte) : False := by
    rw [listed.line, ofOperation] at equal
    refine operation.take_text_ne _ ((congrArg (fun text => text.toList.take 2) equal).trans ?_)
    rw [String.toList_append]
    rfl
  rcases isData_or_isListed read address with data | ⟨one, listed⟩
  · rcases isData_or_isListed other address with otherData | ⟨two, otherListed⟩
    · rw [data, otherData] at same ⊢
      have first := Text.hexByte_injective ((String.append_right_inj _).mp same)
      rw [← UInt16.add_zero address] at first
      refine ⟨rfl, fun index below => .inr ?_⟩
      rw [Nat.lt_one_iff.mp below]
      exact first
    · rw [data] at same
      exact (apart otherListed _ same).elim
  · rcases isData_or_isListed other address with otherData | ⟨two, otherListed⟩
    · rw [otherData] at same
      exact (apart listed _ same.symm).elim
    · rcases listed.eq_of_text otherListed same with ⟨numbers, rfl⟩
      have bytes := listed.sameBytes otherListed numbers same
      rw [listed.line, otherListed.line]
      exact ⟨rfl, bytes⟩

end Disassembly

/-! ## Placeholders -/

namespace Immediate

/-- A placeholder of the table of opcodes is left in a text. -/
def IsLeftIn (text : String) : Prop :=
  ∃ immediate : Immediate, immediate.placeholder ≠ "" ∧
    immediate.placeholder.toList <:+: text.toList

/-- A placeholder begins with its only small letter. -/
theorem exists_placeholder_eq {immediate : Immediate} (shown : immediate.isShown = true) :
    ∃ letter rest, immediate.placeholder.toList = letter :: rest ∧ letter.isLower = true ∧
      ∀ other ∈ rest, other.isLower = false := by
  cases immediate with
  | absent | padding => cases shown
  | byte => exact ⟨'d', ['8'], rfl, rfl, by simp⟩
  | word => exact ⟨'d', ['1', '6'], rfl, rfl, by simp⟩
  | address => exact ⟨'a', ['1', '6'], rfl, rfl, by simp⟩
  | highAddress => exact ⟨'a', ['8'], rfl, rfl, by simp⟩
  | relative | offset => exact ⟨'r', ['8'], rfl, rfl, by simp⟩

theorem isShown_of_placeholder {immediate : Immediate} (holds : immediate.placeholder ≠ "") :
    immediate.isShown = true := by
  cases immediate with
  | absent | padding => exact absurd rfl holds
  | _ => rfl

theorem not_isLeftIn {text : String} (capital : ∀ letter ∈ text.toList, letter.isLower = false) :
    ¬ IsLeftIn text := by
  rintro ⟨immediate, holds, inside⟩
  rcases exists_placeholder_eq (isShown_of_placeholder holds) with ⟨letter, rest, same, lower, -⟩
  have member : letter ∈ text.toList := inside.subset (by rw [same]; exact List.mem_cons_self)
  rw [capital letter member] at lower
  cases lower

end Immediate

namespace Operation

/-- The table of opcodes has one place for an operand, and the text has the operand there. -/
def FillsPlace (operation : Operation) (operand text : String) : Prop :=
  ∃ lead trail, text = lead ++ operand ++ trail ∧ ∀ before after,
    operation.mnemonic = before ++ operation.immediate.placeholder ++ after ↔
      before = lead ∧ after = trail

theorem fillsPlace_text {operation : Operation} (shown : operation.immediate.isShown = true)
    (operand : String) : operation.FillsPlace operand (operation.text operand) := by
  rcases exists_encloses shown with ⟨lead, trail, encloses⟩
  rcases Immediate.exists_placeholder_eq shown with ⟨small, rest, placeholder, lower, capital⟩
  have alone : small ∉ rest :=
    fun member => Bool.false_ne_true ((capital small member).symm.trans lower)
  have outside := encloses.notMem_of_isLower lower
  have behind : small ∉ rest ++ trail.toList := by
    rw [List.mem_append, not_or]
    exact ⟨alone, outside.2⟩
  refine ⟨lead, trail, encloses.text operand, fun before after => ⟨fun same => ?_, ?_⟩⟩
  · have letters := congrArg String.toList ((encloses.text _).symm.trans same)
    simp only [String.toList_append, placeholder, List.append_assoc, List.cons_append] at letters
    rcases (List.append_cons_inj_of_notMem outside.1 behind).mp letters with ⟨one, -, other⟩
    exact ⟨(String.toList_inj.mp one).symm,
      (String.toList_inj.mp (List.append_cancel_left other)).symm⟩
  · rintro ⟨rfl, rfl⟩
    exact encloses.text _

end Operation

namespace Disassembly

/-- A line has no small letter. -/
theorem isLower_of_mem_line (read : UInt16 -> UInt8) (address : UInt16) :
    ∀ letter ∈ (lineAt read address).text.toList, letter.isLower = false := by
  rcases isData_or_isListed read address with data | ⟨operation, listed⟩
  · rw [data]
    intro letter member
    rw [String.toList_append] at member
    rcases List.mem_append.mp member with lead | digit
    · have capital : ("DB $".toList.all fun letter => !letter.isLower) = true := by decide
      have plain := List.all_eq_true.mp capital letter lead
      rwa [Bool.not_eq_true'] at plain
    · rw [Text.hexByte, String.toList_ofList] at digit
      exact Text.isLower_of_isHexDigit (Text.isHexDigit_of_mem_hexDigits digit)
  · rw [listed.line]
    exact operation.isLower_of_mem_text read _

/-- The text of a line tells the instruction.  Where two memories have the same text at an
address, the lines are of one length, and so many bytes are the same from there on; only the
byte that comes after the opcode of STOP may be another one.  No placeholder is left in a
text, and where the table of opcodes has one it has it once, and the text has the operand
there. -/
theorem text_determines_bytes (read : UInt16 -> UInt8) (address : UInt16) :
    (∀ other : UInt16 -> UInt8, (lineAt other address).text = (lineAt read address).text ->
      (lineAt other address).length = (lineAt read address).length ∧
        SameBytes read other address (lineAt read address).length) ∧
    ¬ Immediate.IsLeftIn (lineAt read address).text ∧
    ∀ operation : Operation, Opcode.decode (read address) = .operation operation ->
      operation.immediate.placeholder ≠ "" ->
      operation.FillsPlace (operation.immediate.render read (address + 1))
        (lineAt read address).text := by
  refine ⟨fun other => sameBytes_of_text, Immediate.not_isLeftIn (isLower_of_mem_line read address),
    fun operation decoded holds => ?_⟩
  rw [lineAt, decoded]
  exact Operation.fillsPlace_text (Immediate.isShown_of_placeholder holds) _

/-- STOP looks the same with any byte behind it. -/
example : lineAt (fun address => if address = 0xFFFF then 0x10 else 0x00) 0xFFFF =
    lineAt (fun address => if address = 0xFFFF then 0x10 else 0x55) 0xFFFF := by
  decide

/-- A call at the end of the addresses, with its operand at their beginning, in memories
that are filled with a byte. -/
def callAround (byte : UInt8) (address : UInt16) : UInt8 :=
  if address = 0xFFFF then 0xCD else if address = 0 then 0x34 else if address = 1 then 0x12
  else byte

/-- Memories that differ elsewhere show one call, and have the same bytes there. -/
theorem callAround_shows_bytes :
    (lineAt (callAround 0x00) 0xFFFF).text = "CALL $1234" ∧
      (lineAt (callAround 0xAA) 0xFFFF).text = "CALL $1234" ∧
      SameBytes (callAround 0x00) (callAround 0xAA) 0xFFFF 3 ∧
      callAround 0xAA 2 ≠ callAround 0x00 2 ∧
      (Operation.call .always).FillsPlace "$1234" "CALL $1234" := by
  have one : (lineAt (callAround 0x00) 0xFFFF).text = "CALL $1234" := by decide
  have other : (lineAt (callAround 0xAA) 0xFFFF).text = "CALL $1234" := by decide
  rcases text_determines_bytes (callAround 0x00) 0xFFFF with ⟨bytes, -, filled⟩
  rw [one] at filled
  exact ⟨one, other, (bytes (callAround 0xAA) (other.trans one.symm)).2, by decide,
    filled (.call .always) rfl (by decide)⟩

end Disassembly

end Dmg
