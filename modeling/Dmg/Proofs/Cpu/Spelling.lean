import Dmg.Proofs.Cpu.Listing
import Mathlib.Data.List.DropRight

/-!
# What a line of a listing spells

The text of a line is the form of its operation around the text of its operand.  Bytes and
words can be read back from their digits, so an operand that is shown tells the bytes that it
is read from.

The operand can also be told from the form.  A form has no dollar in it, and no number at its
end, and an operand either begins with a dollar and goes on in digits or is a number with a
sign that nothing follows.  What is left of a text when its operand is taken out is the form.
-/

namespace Dmg

/-! ## Letters -/

namespace Text

/-- Whether a character is one of the digits in which bytes and words are written. -/
def isHexDigit (letter : Char) : Bool :=
  (List.range 16).any fun value => hexDigit value == letter

theorem isHexDigit_of_mem_hexDigits {width value : Nat} {letter : Char}
    (member : letter ∈ hexDigits width value) : isHexDigit letter = true := by
  induction width generalizing value with
  | zero => cases member
  | succ width inductionHypothesis =>
      rcases List.mem_append.mp member with earlier | last
      · exact inductionHypothesis earlier
      · have below : value % 16 < 16 := Nat.mod_lt _ (by decide)
        rw [List.mem_singleton.mp last, isHexDigit]
        exact List.any_eq_true.mpr ⟨_, List.mem_range.mpr below, beq_self_eq_true _⟩

theorem isLower_of_isHexDigit {letter : Char} (digit : isHexDigit letter = true) :
    letter.isLower = false := by
  have large : ∀ value ∈ List.range 16, (hexDigit value).isLower = false := by decide
  rcases List.any_eq_true.mp digit with ⟨value, member, same⟩
  rw [← eq_of_beq same]
  exact large value member

theorem hexDigits_injective {width first second : Nat} (firstFits : first < 16 ^ width)
    (secondFits : second < 16 ^ width) (same : hexDigits width first = hexDigits width second) :
    first = second := by
  have read (value : Nat) (fits : value < 16 ^ width) :
      readDigits 16 (16 ^ width) 0 (hexDigits width value) = .ok value := by
    have step : readDigits 16 (16 ^ width) 0 (hexDigits width value ++ []) =
        readDigits 16 (16 ^ width) (0 * 16 ^ width + value) [] :=
      readDigits_hexDigits 0 [] fits (by omega)
    rw [List.append_nil, Nat.zero_mul, Nat.zero_add] at step
    exact step
  have equal := read first firstFits
  rw [same, read second secondFits] at equal
  exact (Except.ok.inj equal).symm

theorem hexByte_injective {first second : UInt8} (same : hexByte first = hexByte second) :
    first = second := by
  rw [hexByte, hexByte, String.ofList_inj] at same
  exact UInt8.toNat_inj.mp (hexDigits_injective first.toNat_lt second.toNat_lt same)

theorem hexWord_injective {first second : UInt16} (same : hexWord first = hexWord second) :
    first = second := by
  rw [hexWord, hexWord, String.ofList_inj] at same
  exact UInt16.toNat_inj.mp (hexDigits_injective first.toNat_lt second.toNat_lt same)

theorem natRepr_injective {first second : Nat} (same : first.repr = second.repr) :
    first = second := by
  have digits := congrArg String.toList same
  rw [Nat.toList_repr, Nat.toList_repr] at digits
  have read := congrArg (Nat.ofDigitChars 10 · 0) digits
  rwa [Nat.ofDigitChars_ten_toDigits, Nat.ofDigitChars_ten_toDigits] at read

theorem intRepr_injective {first second : Int} (same : first.repr = second.repr) :
    first = second := by
  have unsigned (value magnitude : Nat) : value.repr ≠ "-" ++ magnitude.repr := by
    intro equal
    have member : '-' ∈ Nat.toDigits 10 value := by
      rw [← Nat.toList_repr, equal, String.toList_append]
      exact List.mem_cons_self
    cases Nat.isDigit_of_mem_toDigits (by decide) (by decide) member
  rw [Int.repr_eq_if, Int.repr_eq_if] at same
  split at same <;> split at same
  · have equal := natRepr_injective same
    omega
  · exact absurd same (unsigned _ _)
  · exact absurd same.symm (unsigned _ _)
  · have equal := natRepr_injective ((String.append_right_inj "-").mp same)
    omega
end Text

/-! ## Operands -/

namespace Displacement

theorem toInt_injective {first second : UInt8} (same : toInt first = toInt second) :
    first = second := by
  have firstBound := first.toNat_lt
  have secondBound := second.toNat_lt
  apply UInt8.toNat_inj.mp
  rw [toInt, toInt] at same
  split at same <;> split at same <;> omega

theorem toWord_injective {first second : UInt8} (same : toWord first = toWord second) :
    first = second := by
  have low (byte : UInt8) : Word.low (toWord byte) = byte := by
    apply UInt8.toNat.inj
    have bound := byte.toNat_lt
    rw [Word.toNat_low, toWord]
    split
    · rw [UInt8.toNat_toUInt16]
      omega
    · rw [UInt16.toNat_add, UInt8.toNat_toUInt16]
      change (byte.toNat + 0xFF00) % 65536 % 256 = byte.toNat
      omega
  rw [← low first, same, low]

end Displacement

namespace Immediate

def isShown : Immediate -> Bool
  | absent | padding => false
  | _ => true

/-- An operand that is shown tells the bytes that it is read from. -/
theorem bytes_of_render {immediate : Immediate} (shown : immediate.isShown = true)
    {read other : UInt16 -> UInt8} {address : UInt16}
    (same : immediate.render read address = immediate.render other address) :
    ∀ index < immediate.size,
      read (address + UInt16.ofNat index) = other (address + UInt16.ofNat index) := by
  have one (first : read address = other address) :
      ∀ index < 1, read (address + UInt16.ofNat index) = other (address + UInt16.ofNat index) := by
    intro index below
    rw [Nat.lt_one_iff.mp below]
    change read (address + 0) = other (address + 0)
    rw [UInt16.add_zero, first]
  have two (words : "$" ++ Text.hexWord (Word.ofBytes (read (address + 1)) (read address)) =
      "$" ++ Text.hexWord (Word.ofBytes (other (address + 1)) (other address))) :
      ∀ index < 2, read (address + UInt16.ofNat index) = other (address + UInt16.ofNat index) := by
    have equal := Text.hexWord_injective ((String.append_right_inj "$").mp words)
    have lower := congrArg Word.low equal
    have upper := congrArg Word.high equal
    rw [Word.low_ofBytes, Word.low_ofBytes] at lower
    rw [Word.high_ofBytes, Word.high_ofBytes] at upper
    intro index below
    rcases Nat.lt_succ_iff_lt_or_eq.mp below with first | rfl
    · exact one lower index first
    · exact upper
  cases immediate with
  | absent | padding => cases shown
  | byte => exact one (Text.hexByte_injective ((String.append_right_inj "$").mp same))
  | highAddress => exact one (Text.hexByte_injective ((String.append_right_inj "$FF").mp same))
  | word | address => exact two same
  | relative =>
      have target := Text.hexWord_injective ((String.append_right_inj "$").mp same)
      exact one (Displacement.toWord_injective ((UInt16.add_right_inj _).mp target))
  | offset => exact one (Displacement.toInt_injective (Text.intRepr_injective same))

/-- An operand begins with a dollar and goes on in digits, unless it is a displacement
from the stack pointer. -/
theorem exists_render_eq {immediate : Immediate} (shown : immediate.isShown = true)
    (other : immediate ≠ .offset) (read : UInt16 -> UInt8) (address : UInt16) :
    ∃ digits, (immediate.render read address).toList = '$' :: digits ∧
      ∀ digit ∈ digits, Text.isHexDigit digit = true := by
  have written (width value : Nat) :
      ∃ digits, ("$" ++ String.ofList (Text.hexDigits width value)).toList = '$' :: digits ∧
        ∀ digit ∈ digits, Text.isHexDigit digit = true := by
    refine ⟨Text.hexDigits width value, ?_, fun digit => Text.isHexDigit_of_mem_hexDigits⟩
    rw [String.toList_append, String.toList_ofList (l := Text.hexDigits width value)]
    rfl
  cases immediate with
  | absent | padding => cases shown
  | offset => exact absurd rfl other
  | byte | word | address | relative => exact written _ _
  | highAddress =>
      refine ⟨'F' :: 'F' :: Text.hexDigits 2 (read address).toNat, ?_, ?_⟩
      · rw [render, String.toList_append, Text.hexByte,
          String.toList_ofList (l := Text.hexDigits 2 (read address).toNat)]
        rfl
      · simp only [List.forall_mem_cons]
        exact ⟨by decide, by decide, fun digit => Text.isHexDigit_of_mem_hexDigits⟩

end Immediate

/-! ## Forms -/

namespace Text

/-- Whether a character can stand in a number with a sign. -/
def isSigned (letter : Char) : Bool :=
  letter.isDigit || letter == '-'

/-- A text in which there is no operand has no dollar and no small letter, and no number at
its end. -/
def isBare (text : String) : Bool :=
  (text.toList.all fun letter => letter != '$' && !letter.isLower) &&
    text.toList.getLast?.all fun letter => !isSigned letter

/-- The characters around a dollar and the digits that follow it. -/
def aroundWord (letters : List Char) : List Char :=
  letters.takeWhile (· != '$') ++ ((letters.dropWhile (· != '$')).drop 1).dropWhile isHexDigit

/-- What is left of a text when its operand is taken out. -/
def form (text : String) : List Char :=
  (aroundWord text.toList).rdropWhile isSigned

theorem isBare_append {first second : String} (one : isBare first = true)
    (other : isBare second = true) : isBare (first ++ second) = true := by
  rw [isBare, Bool.and_eq_true] at one other
  rw [isBare, String.toList_append, List.all_append, one.1, other.1, List.getLast?_append]
  cases last : second.toList.getLast? with
  | none => exact one.2
  | some letter =>
      rw [last] at other
      exact other.2

theorem plain_of_isBare {text : String} (bare : isBare text = true) :
    ∀ letter ∈ text.toList, letter ≠ '$' ∧ letter.isLower = false := by
  rw [isBare, Bool.and_eq_true, List.all_eq_true] at bare
  intro letter member
  have plain := bare.1 letter member
  rw [Bool.and_eq_true, bne_iff_ne, Bool.not_eq_true'] at plain
  exact plain

theorem aroundWord_of_forall_ne {letters : List Char} (free : ∀ letter ∈ letters, letter ≠ '$') :
    aroundWord letters = letters := by
  have all : ∀ letter ∈ letters, (letter != '$') = true :=
    fun letter member => bne_iff_ne.mpr (free letter member)
  rw [aroundWord, List.takeWhile_eq_self_iff.mpr all, List.dropWhile_eq_nil_iff.mpr all]
  exact List.append_nil _

theorem aroundWord_append {lead digits trail : List Char}
    (free : ∀ letter ∈ lead, letter ≠ '$') (word : ∀ digit ∈ digits, isHexDigit digit = true)
    (ends : ∀ letter ∈ trail.head?, isHexDigit letter = false) :
    aroundWord (lead ++ '$' :: (digits ++ trail)) = lead ++ trail := by
  have all : ∀ letter ∈ lead, (letter != '$') = true :=
    fun letter member => bne_iff_ne.mpr (free letter member)
  have rest : trail.dropWhile isHexDigit = trail := by
    cases trail with
    | nil => rfl
    | cons letter trail => rw [List.dropWhile_cons, ends letter rfl, if_neg Bool.false_ne_true]
  rw [aroundWord, List.takeWhile_append_of_pos all, List.dropWhile_append_of_pos all,
    List.takeWhile_cons_of_neg (by decide), List.dropWhile_cons_of_neg (by decide),
    List.drop_one, List.tail_cons, List.dropWhile_append_of_pos word, rest, List.append_nil]

theorem rdropWhile_of_isBare {text : String} (bare : isBare text = true) :
    text.toList.rdropWhile isSigned = text.toList := by
  rw [isBare, Bool.and_eq_true] at bare
  refine List.rdropWhile_eq_self_iff.mpr fun some signed => ?_
  have last := bare.2
  rw [List.getLast?_eq_some_getLast some, Option.all_some, signed] at last
  cases last

theorem rdropWhile_append {letters number : List Char}
    (signed : ∀ letter ∈ number, isSigned letter = true) :
    (letters ++ number).rdropWhile isSigned = letters.rdropWhile isSigned := by
  rw [List.rdropWhile, List.reverse_append, List.dropWhile_append_of_pos, List.rdropWhile]
  intro letter member
  exact signed letter (List.mem_reverse.mp member)

theorem plain_of_isSigned {letter : Char} (signed : isSigned letter = true) :
    letter ≠ '$' ∧ letter.isLower = false := by
  refine ⟨?_, ?_⟩
  · rintro rfl
    cases signed
  · rw [isSigned, Bool.or_eq_true, beq_iff_eq] at signed
    rcases signed with digit | rfl
    · rw [Char.isDigit, Bool.and_eq_true, decide_eq_true_iff, decide_eq_true_iff] at digit
      refine Bool.and_eq_false_iff.mpr (.inl (decide_eq_false fun lower => ?_))
      exact absurd (UInt32.le_trans lower digit.2) (by decide)
    · rfl

/-- There is no operand in a text without one. -/
theorem form_of_isBare {text : String} (bare : isBare text = true) : form text = text.toList := by
  rw [form, aroundWord_of_forall_ne fun letter member => (plain_of_isBare bare letter member).1,
    rdropWhile_of_isBare bare]

theorem isSigned_of_mem_repr {value : Int} : ∀ letter ∈ (toString value).toList,
    isSigned letter = true := by
  have decimal (value : Nat) : ∀ letter ∈ value.repr.toList, isSigned letter = true := by
    intro letter member
    rw [Nat.toList_repr] at member
    rw [isSigned, Nat.isDigit_of_mem_toDigits (by decide) (by decide) member]
    rfl
  intro letter member
  rw [Int.toString_eq_repr, Int.repr_eq_if] at member
  split at member
  · exact decimal _ letter member
  · rw [String.toList_append] at member
    rcases List.mem_append.mp member with sign | digit
    · rw [List.mem_singleton.mp sign]
      rfl
    · exact decimal _ letter digit

end Text

namespace Immediate

theorem render_of_hidden {immediate : Immediate} (hidden : immediate.isShown = false)
    {read : UInt16 -> UInt8} {address : UInt16} : immediate.render read address = "" := by
  cases immediate with
  | absent | padding => rfl
  | _ => cases hidden

theorem size_of_hidden {immediate : Immediate} (hidden : immediate.isShown = false) :
    immediate.size = 0 ∨ immediate = .padding ∧ immediate.size = 1 := by
  cases immediate with
  | absent => exact .inl rfl
  | padding => exact .inr ⟨rfl, rfl⟩
  | _ => cases hidden

theorem isLower_of_mem_render {immediate : Immediate} (shown : immediate.isShown = true)
    {read : UInt16 -> UInt8} {address : UInt16} {letter : Char}
    (member : letter ∈ (immediate.render read address).toList) : letter.isLower = false := by
  by_cases offset : immediate = .offset
  · rw [offset] at member
    exact (Text.plain_of_isSigned (Text.isSigned_of_mem_repr letter member)).2
  · rcases exists_render_eq shown offset read address with ⟨digits, written, word⟩
    rw [written] at member
    rcases List.mem_cons.mp member with rfl | digit
    · rfl
    · exact Text.isLower_of_isHexDigit (word letter digit)

end Immediate

theorem Operand.isBare_name (operand : Operand) : Text.isBare operand.name = true := by
  cases operand <;> decide

theorem Pair.isBare_name (pair : Pair) : Text.isBare pair.name = true := by
  cases pair <;> decide

theorem StackPair.isBare_name (pair : StackPair) : Text.isBare pair.name = true := by
  cases pair <;> decide

theorem Pointer.isBare_name (pointer : Pointer) : Text.isBare pointer.name = true := by
  cases pointer <;> decide

theorem Condition.isBare_guard (condition : Condition) :
    Text.isBare (condition.guard "") = true := by
  cases condition <;> decide

theorem Condition.guard_eq (condition : Condition) (target : String) :
    condition.guard target = condition.guard "" ++ target := by
  cases condition with
  | always => exact String.empty_append.symm
  | nonZero | zero | noCarry | carry =>
      change _ ++ "," ++ target = _ ++ "," ++ "" ++ target
      rw [String.append_empty]

theorem Arithmetic.isBare_lead (arithmetic : Arithmetic) : Text.isBare arithmetic.lead = true := by
  cases arithmetic <;> decide

theorem Rotation.isBare_name (rotation : Rotation) : Text.isBare rotation.name = true := by
  cases rotation <;> decide

theorem Shift.isBare_name (movement : Shift) : Text.isBare movement.name = true := by
  cases movement with
  | rotate rotation => exact rotation.isBare_name
  | sla | sra | swap | srl => decide

namespace Operation

open Text (isBare isBare_append form)

/-- The number of a bit is not the end of a text, as its operand comes after it. -/
theorem isBare_bit {word : String} (bare : isBare word = true) (index : Fin 8)
    (operand : Operand) : isBare (word ++ bitName index ++ "," ++ operand.name) = true := by
  have inside : ∀ index : Fin 8, isBare (bitName index ++ ",") = true := by decide
  have apart : word ++ bitName index ++ "," = word ++ (bitName index ++ ",") :=
    String.append_assoc
  rw [apart]
  exact isBare_append (isBare_append bare (inside index)) operand.isBare_name

theorem isBare_restart (index : Fin 8) : isBare ("RST " ++ restartName index) = true := by
  revert index
  decide

/-- The form of an operation has no operand in it. -/
theorem isBare_text (operation : Operation) : isBare (operation.text "") = true := by
  cases operation with
  | nop | stop | halt | disableInterrupts | enableInterrupts | storeHigh | loadHigh | storeHighC
  | loadHighC | storeAbsolute | loadAbsolute | storeStackPointer | loadStackOffset
  | loadStackPointer | addStackOffset | decimalAdjust | complement | setCarry | complementCarry
  | jumpHl | reti => decide
  | load target source =>
      exact isBare_append (isBare_append (isBare_append (by decide) target.isBare_name)
        (by decide)) source.isBare_name
  | loadByte target | loadWord target =>
      exact isBare_append (isBare_append (isBare_append (by decide) target.isBare_name)
        (by decide)) (by decide)
  | storeThrough pointer =>
      exact isBare_append (isBare_append (by decide) pointer.isBare_name) (by decide)
  | loadThrough pointer => exact isBare_append (by decide) pointer.isBare_name
  | push pair | pop pair | incrementPair pair | decrementPair pair | addPair pair =>
      exact isBare_append (by decide) pair.isBare_name
  | increment target | decrement target => exact isBare_append (by decide) target.isBare_name
  | arithmetic combined source => exact isBare_append combined.isBare_lead source.isBare_name
  | arithmeticByte combined => exact isBare_append combined.isBare_lead (by decide)
  | rotateA rotation => exact isBare_append rotation.isBare_name (by decide)
  | jumpRelative condition | jump condition | call condition =>
      exact isBare_append (by decide) condition.isBare_guard
  | ret condition => cases condition <;> decide
  | restart index => exact isBare_restart index
  | shift movement target =>
      exact isBare_append (isBare_append movement.isBare_name (by decide)) target.isBare_name
  | testBit index operand | resetBit index operand | setBit index operand =>
      exact isBare_bit (by decide) index operand

/-- An operation is written with its operand between two texts. -/
structure Encloses (operation : Operation) (lead trail : String) : Prop where
  text : ∀ operand, operation.text operand = lead ++ operand ++ trail
  /-- What comes after the operand does not go on in digits. -/
  ends : ∀ letter ∈ trail.toList.head?, Text.isHexDigit letter = false
  /-- Nothing comes after a number with a sign. -/
  offset : operation.immediate = .offset -> trail = ""

theorem encloses_of_suffix {operation : Operation} {lead : String}
    (text : ∀ operand, operation.text operand = lead ++ operand) :
    operation.Encloses lead "" where
  text operand := by rw [text, String.append_empty]
  ends letter member := by cases member
  offset _ := rfl

theorem exists_encloses {operation : Operation} (shown : operation.immediate.isShown = true) :
    ∃ lead trail, operation.Encloses lead trail := by
  have closed {rest : List Char} : ∀ letter ∈ (')' :: rest).head?,
      Text.isHexDigit letter = false := by
    rintro letter ⟨⟩
    decide
  have guarded {word : String} {condition : Condition}
      (text : ∀ operand, operation.text operand = word ++ condition.guard operand) :
      ∃ lead trail, operation.Encloses lead trail :=
    ⟨word ++ condition.guard "", "", encloses_of_suffix fun operand => by
      rw [text, condition.guard_eq, String.append_assoc]⟩
  cases operation with
  | loadByte target | loadWord target => exact ⟨_, _, encloses_of_suffix fun _ => rfl⟩
  | loadStackOffset => exact ⟨_, _, encloses_of_suffix fun _ => rfl⟩
  | addStackOffset => exact ⟨_, _, encloses_of_suffix fun _ => rfl⟩
  | arithmeticByte combined => exact ⟨_, _, encloses_of_suffix fun _ => rfl⟩
  | jumpRelative condition | jump condition | call condition => exact guarded fun _ => rfl
  | storeHigh | loadHigh | storeAbsolute | loadAbsolute | storeStackPointer =>
      exact ⟨_, _, fun _ => rfl, closed, fun offset => nomatch offset⟩
  | _ => cases shown

theorem Encloses.text_empty {operation : Operation} {lead trail : String}
    (encloses : operation.Encloses lead trail) : operation.text "" = lead ++ trail := by
  rw [encloses.text, String.append_empty]

theorem Encloses.plain_of_mem {operation : Operation} {lead trail : String}
    (encloses : operation.Encloses lead trail) {letter : Char}
    (member : letter ∈ lead.toList ++ trail.toList) : letter ≠ '$' ∧ letter.isLower = false := by
  rw [← String.toList_append, ← encloses.text_empty] at member
  exact Text.plain_of_isBare operation.isBare_text letter member

theorem Encloses.notMem_of_isLower {operation : Operation} {lead trail : String}
    (encloses : operation.Encloses lead trail) {letter : Char} (lower : letter.isLower = true) :
    letter ∉ lead.toList ∧ letter ∉ trail.toList := by
  rw [← not_or, ← List.mem_append]
  intro member
  rw [(encloses.plain_of_mem member).2] at lower
  cases lower

/-- What is left of a line when its operand is taken out is the form of its operation. -/
theorem form_text (operation : Operation) (read : UInt16 -> UInt8) (address : UInt16) :
    form (operation.text (operation.immediate.render read address)) =
      (operation.text "").toList := by
  have bare := operation.isBare_text
  by_cases shown : operation.immediate.isShown = true
  · rcases exists_encloses shown with ⟨lead, trail, encloses⟩
    have around := encloses.text_empty
    by_cases offset : operation.immediate = .offset
    · have number : operation.immediate.render read address =
          toString (Displacement.toInt (read address)) := by
        rw [offset]
        rfl
      have signed : ∀ letter ∈ (toString (Displacement.toInt (read address))).toList,
          Text.isSigned letter = true :=
        Text.isSigned_of_mem_repr
      rw [encloses.offset offset, String.append_empty] at around
      rw [encloses.text, encloses.offset offset, String.append_empty, form, number,
        String.toList_append, Text.aroundWord_of_forall_ne, Text.rdropWhile_append signed,
        ← around, Text.rdropWhile_of_isBare bare]
      intro letter member
      rcases List.mem_append.mp member with outside | inside
      · exact (encloses.plain_of_mem (List.mem_append_left _ outside)).1
      · exact (Text.plain_of_isSigned (signed letter inside)).1
    · rcases operation.immediate.exists_render_eq shown offset read address with
        ⟨digits, written, word⟩
      have free : ∀ letter ∈ lead.toList, letter ≠ '$' :=
        fun letter member => (encloses.plain_of_mem (List.mem_append_left _ member)).1
      rw [encloses.text, form, String.toList_append, String.toList_append, written,
        List.append_assoc, List.cons_append, Text.aroundWord_append free word encloses.ends,
        ← String.toList_append, ← around, Text.rdropWhile_of_isBare bare]
  · rw [Immediate.render_of_hidden (Bool.eq_false_iff.mpr shown), Text.form_of_isBare bare]

/-- A line of an operation has no small letter. -/
theorem isLower_of_mem_text (operation : Operation) (read : UInt16 -> UInt8) (address : UInt16) :
    ∀ letter ∈ (operation.text (operation.immediate.render read address)).toList,
      letter.isLower = false := by
  intro letter member
  by_cases shown : operation.immediate.isShown = true
  · rcases exists_encloses shown with ⟨lead, trail, encloses⟩
    rw [encloses.text, String.toList_append, String.toList_append] at member
    rcases List.mem_append.mp member with before | after
    · rcases List.mem_append.mp before with before | operand
      · exact (encloses.plain_of_mem (List.mem_append_left _ before)).2
      · exact Immediate.isLower_of_mem_render shown operand
    · exact (encloses.plain_of_mem (List.mem_append_right _ after)).2
  · rw [Immediate.render_of_hidden (Bool.eq_false_iff.mpr shown)] at member
    exact (Text.plain_of_isBare operation.isBare_text letter member).2

end Operation

end Dmg
