import Dmg.Proofs.Cpu.Readback
import Mathlib.Data.List.Infix

/-!
# A listing made from the table

The text of a line can be made from the text that the table of opcodes has for the
instruction.  Several tests, one after the other, find out what the placeholder in it
stands for, and the operand is put in its place.

A test looks for a placeholder with the characters around it.  Small letters are in
placeholders and nowhere else, so it can only find the one that is there.
-/

namespace Dmg

/-! ## Parts of a text -/

namespace Text

/-- Whether a text has a pattern somewhere in it. -/
def contains (text pattern : String) : Bool :=
  decide (pattern.toList <:+: text.toList)

def startsWith (text pattern : String) : Bool :=
  decide (pattern.toList <+: text.toList)

/-- The characters of a text with each occurrence of a pattern replaced, from the front.
The first argument counts the characters of an occurrence that are still to be skipped. -/
def replaceFrom (pattern replacement : List Char) : Nat -> List Char -> List Char
  | _, [] => []
  | skipped + 1, _ :: rest => replaceFrom pattern replacement skipped rest
  | 0, letter :: rest =>
      if pattern <+: letter :: rest then
        replacement ++ replaceFrom pattern replacement (pattern.length - 1) rest
      else letter :: replaceFrom pattern replacement 0 rest

/-- A text with each occurrence of a pattern replaced. -/
def replace (text pattern replacement : String) : String :=
  String.ofList (replaceFrom pattern.toList replacement.toList 0 text.toList)

theorem replaceFrom_skip (pattern replacement passed rest : List Char) :
    replaceFrom pattern replacement passed.length (passed ++ rest) =
      replaceFrom pattern replacement 0 rest := by
  induction passed with
  | nil => rfl
  | cons letter passed inductionHypothesis => exact inductionHypothesis

theorem replaceFrom_of_notMem {first : Char} {lead : List Char} (free : first ∉ lead)
    (pattern replacement rest : List Char) :
    replaceFrom (first :: pattern) replacement 0 (lead ++ rest) =
      lead ++ replaceFrom (first :: pattern) replacement 0 rest := by
  induction lead with
  | nil => rfl
  | cons letter lead inductionHypothesis =>
      rw [List.mem_cons, not_or] at free
      rcases free with ⟨other, later⟩
      have misses : ¬ first :: pattern <+: letter :: (lead ++ rest) :=
        fun begins => other (List.cons_prefix_cons.mp begins).1
      rw [List.cons_append, replaceFrom, if_neg misses, inductionHypothesis later]
      rfl

/-- A pattern is replaced where it is if its first character is nowhere else. -/
theorem replace_of_notMem {text lead trail pattern replacement : String} {first : Char}
    {rest : List Char} (parts : text = lead ++ pattern ++ trail)
    (begins : pattern.toList = first :: rest) (before : first ∉ lead.toList)
    (behind : first ∉ trail.toList) :
    replace text pattern replacement = lead ++ replacement ++ trail := by
  have found : first :: rest <+: first :: (rest ++ trail.toList) :=
    List.cons_prefix_cons.mpr ⟨rfl, List.prefix_append rest _⟩
  have last := replaceFrom_of_notMem behind rest replacement.toList []
  rw [replaceFrom, List.append_nil] at last
  rw [← String.toList_inj, replace, String.toList_ofList, parts, String.toList_append,
    String.toList_append, begins, List.append_assoc, replaceFrom_of_notMem before,
    List.cons_append, replaceFrom, if_pos found, List.length_cons, Nat.add_sub_cancel,
    replaceFrom_skip, last, String.toList_append, String.toList_append, List.append_assoc]

theorem contains_eq_false {text pattern : String} {letter : Char}
    (member : letter ∈ pattern.toList) (absent : letter ∉ text.toList) :
    contains text pattern = false := by
  rw [contains, decide_eq_false_iff_not]
  exact fun inside => absent (inside.subset member)

/-- If the first character of a pattern can only be at one place of a text, the pattern is
looked for there. -/
theorem contains_of_notMem {text lead trail pattern placeholder : String} {first letter : Char}
    {rest others : List Char} (parts : text = lead ++ placeholder ++ trail)
    (begins : pattern.toList = first :: rest) (opens : placeholder.toList = letter :: others)
    (before : first ∉ lead.toList) (behind : first ∉ others ++ trail.toList) :
    contains text pattern = decide (pattern.toList <+: placeholder.toList ++ trail.toList) := by
  have letters : text.toList = lead.toList ++ letter :: (others ++ trail.toList) := by
    rw [parts, String.toList_append, String.toList_append, opens, List.append_assoc,
      List.cons_append]
  rw [contains, decide_eq_decide, letters, begins, opens]
  constructor
  · rintro ⟨front, back, same⟩
    rw [List.append_assoc, List.cons_append] at same
    have member : first ∈ lead.toList ++ letter :: (others ++ trail.toList) := by
      rw [← same]
      exact List.mem_append_right _ List.mem_cons_self
    rw [List.mem_append, List.mem_cons] at member
    rcases member with inside | rfl | inside
    · exact absurd inside before
    · rcases (List.append_cons_inj_of_notMem before behind).mp same.symm with ⟨-, -, later⟩
      exact ⟨back, congrArg (first :: ·) later.symm⟩
    · exact absurd inside behind
  · intro found
    exact found.isInfix.trans (List.suffix_append _ _).isInfix

end Text

/-! ## The operand in its place -/

/-- No placeholder begins as another one does. -/
theorem Immediate.placeholder_eq_of_prefix {first second : Immediate}
    (begins : first.placeholder.toList <+: second.placeholder.toList)
    (shown : first.isShown = true) : first.placeholder = second.placeholder := by
  revert begins shown
  cases first <;> cases second <;> decide

theorem Immediate.placeholder_of_hidden {immediate : Immediate}
    (hidden : immediate.isShown = false) : immediate.placeholder = "" := by
  cases immediate with
  | absent | padding => rfl
  | _ => cases hidden

namespace Operation

open Text (contains startsWith replace)

/-- Of the placeholders the table has the one that the operation has. -/
theorem contains_mnemonic (operation : Operation) (sought : Immediate)
    (shown : sought.isShown = true) :
    contains operation.mnemonic sought.placeholder =
      (sought.placeholder == operation.immediate.placeholder) := by
  rcases Immediate.exists_placeholder_eq shown with ⟨small, rest, begins, lower, -⟩
  by_cases has : operation.immediate.isShown = true
  · rcases exists_encloses has with ⟨lead, trail, encloses⟩
    rcases Immediate.exists_placeholder_eq has with ⟨letter, others, opens, -, capital⟩
    have outside := encloses.notMem_of_isLower lower
    have behind : small ∉ others ++ trail.toList := by
      rw [List.mem_append, not_or]
      exact ⟨fun member => Bool.false_ne_true ((capital small member).symm.trans lower),
        outside.2⟩
    have parts : operation.mnemonic = lead ++ operation.immediate.placeholder ++ trail :=
      encloses.text _
    rw [Text.contains_of_notMem parts begins opens outside.1 behind, Bool.eq_iff_iff,
      decide_eq_true_iff, beq_iff_eq]
    constructor
    · intro found
      rcases List.prefix_or_prefix_of_prefix found (List.prefix_append _ _) with begins | begins
      · exact Immediate.placeholder_eq_of_prefix begins shown
      · exact (Immediate.placeholder_eq_of_prefix begins has).symm
    · intro same
      rw [same]
      exact List.prefix_append _ _
  · have hidden := Immediate.placeholder_of_hidden (Bool.eq_false_iff.mpr has)
    have different : sought.placeholder ≠ operation.immediate.placeholder := by
      intro same
      rw [same, hidden] at begins
      cases begins
    rw [beq_false_of_ne different, mnemonic, hidden]
    refine Text.contains_eq_false (begins ▸ List.mem_cons_self) fun member => ?_
    rw [(Text.plain_of_isBare operation.isBare_text small member).2] at lower
    cases lower

/-- Relative jumps are written with these letters first, and nothing else is. -/
theorem startsWith_mnemonic_iff {operation : Operation} :
    startsWith operation.mnemonic "JR" = true ↔ operation.immediate = .relative := by
  constructor
  · intro begins
    have first : operation.mnemonic.toList.take 2 = ['J', 'R'] :=
      (List.prefix_iff_eq_take.mp (of_decide_eq_true begins)).symm
    revert first
    rw [mnemonic]
    cases operation with
    | jumpRelative condition => exact fun _ => rfl
    | arithmetic combined source => cases combined <;> simp [text, Arithmetic.lead]
    | arithmeticByte combined => cases combined <;> simp [text, Arithmetic.lead]
    | rotateA rotation => cases rotation <;> simp [text, Rotation.name]
    | ret condition => cases condition <;> simp [text]
    | shift movement target =>
        cases movement with
        | rotate rotation => cases rotation <;> simp [text, Shift.name, Rotation.name]
        | _ => simp [text, Shift.name]
    | _ => simp [text]
  · intro relative
    cases operation with
    | jumpRelative condition => cases condition <;> decide
    | _ => cases relative

/-- Only an offset from the stack pointer is written behind its name. -/
theorem immediate_of_contains {operation : Operation}
    (inside : contains operation.mnemonic "SP+r8" = true) : operation.immediate = .offset := by
  have place : contains operation.mnemonic "r8" = true := by
    have part : "r8".toList <:+: "SP+r8".toList := by decide
    exact decide_eq_true (part.trans (of_decide_eq_true inside))
  have same := (operation.contains_mnemonic .offset rfl).symm.trans place
  have displaced : operation.immediate = .relative ∨ operation.immediate = .offset := by
    revert same
    cases operation.immediate <;> decide
  rcases displaced with relative | offset
  · cases operation with
    | jumpRelative condition =>
        have absent : 'S' ∉ (jumpRelative condition).mnemonic.toList := by
          cases condition <;> decide
        rw [Text.contains_eq_false (by decide : 'S' ∈ "SP+r8".toList) absent] at inside
        cases inside
    | _ => cases relative
  · exact offset

/-- The operand of an operation is put where the table has its placeholder. -/
theorem replace_mnemonic {operation : Operation} (shown : operation.immediate.isShown = true)
    (operand : String) :
    replace operation.mnemonic operation.immediate.placeholder operand =
      operation.text operand := by
  rcases exists_encloses shown with ⟨lead, trail, encloses⟩
  rcases Immediate.exists_placeholder_eq shown with ⟨small, rest, begins, lower, -⟩
  have outside := encloses.notMem_of_isLower lower
  rw [encloses.text operand]
  exact Text.replace_of_notMem (encloses.text _) begins outside.1 outside.2

/-- The brackets around an address in the last page are replaced with it. -/
theorem replace_highAddress {operation : Operation} (high : operation.immediate = .highAddress)
    (operand : String) :
    replace operation.mnemonic "(a8)" ("(" ++ operand ++ ")") = operation.text operand := by
  cases operation with
  | storeHigh =>
      have parts : storeHigh.mnemonic = "LDH " ++ "(a8)" ++ ",A" := by decide
      rw [Text.replace_of_notMem parts rfl (by decide) (by decide), ← String.toList_inj]
      simp [text]
  | loadHigh =>
      have parts : loadHigh.mnemonic = "LDH A," ++ "(a8)" ++ "" := by decide
      rw [Text.replace_of_notMem parts rfl (by decide) (by decide), ← String.toList_inj]
      simp [text]
  | _ => cases high

end Operation

namespace Disassembly

open Text (contains startsWith replace)

/-- The text of an instruction, made from its text in the table, its address and the two
bytes behind its opcode.  The first test that holds says what the placeholder stands for. -/
def fill (text : String) (address : UInt16) (low high : UInt8) : String :=
  let word := "$" ++ Text.hexWord (Word.ofBytes high low)
  let displacement := toString (Displacement.toInt low)
  if contains text "d16" then replace text "d16" word
  else if contains text "a16" then replace text "a16" word
  else if contains text "SP+r8" then replace text "r8" displacement
  else if startsWith text "JR" then
    replace text "r8" ("$" ++ Text.hexWord (address + 2 + Displacement.toWord low))
  else if contains text "r8" then replace text "r8" displacement
  else if contains text "a8" then replace text "(a8)" ("($FF" ++ Text.hexByte low ++ ")")
  else if contains text "d8" then replace text "d8" ("$" ++ Text.hexByte low)
  else text

/-- What is made from the table is the text of the operation with its operand. -/
theorem fill_mnemonic (operation : Operation) (read : UInt16 -> UInt8) (address : UInt16) :
    fill operation.mnemonic address (read (address + 1)) (read (address + 2)) =
      operation.text (operation.immediate.render read (address + 1)) := by
  have d16 : contains operation.mnemonic "d16" = ("d16" == operation.immediate.placeholder) :=
    operation.contains_mnemonic .word rfl
  have a16 : contains operation.mnemonic "a16" = ("a16" == operation.immediate.placeholder) :=
    operation.contains_mnemonic .address rfl
  have r8 : contains operation.mnemonic "r8" = ("r8" == operation.immediate.placeholder) :=
    operation.contains_mnemonic .relative rfl
  have a8 : contains operation.mnemonic "a8" = ("a8" == operation.immediate.placeholder) :=
    operation.contains_mnemonic .highAddress rfl
  have d8 : contains operation.mnemonic "d8" = ("d8" == operation.immediate.placeholder) :=
    operation.contains_mnemonic .byte rfl
  have stack (other : operation.immediate ≠ .offset) :
      contains operation.mnemonic "SP+r8" = false :=
    Bool.eq_false_iff.mpr fun inside => other (Operation.immediate_of_contains inside)
  have jump (other : operation.immediate ≠ .relative) :
      startsWith operation.mnemonic "JR" = false :=
    Bool.eq_false_iff.mpr fun begins => other (Operation.startsWith_mnemonic_iff.mp begins)
  have replaced (shown : operation.immediate.isShown = true) (operand : String) :=
    Operation.replace_mnemonic shown operand
  have next := Wired.add_one_add_one address
  rw [fill, d16, a16, r8, a8, d8]
  cases kind : operation.immediate with
  | absent | padding =>
      rw [stack (by rw [kind]; decide), jump (by rw [kind]; decide), Operation.mnemonic, kind]
      simp [Immediate.placeholder, Immediate.render]
  | byte =>
      rw [kind] at stack jump replaced
      rw [stack (by decide), jump (by decide), ← replaced rfl]
      simp [Immediate.placeholder, Immediate.render]
  | word =>
      rw [kind] at replaced
      rw [← replaced rfl]
      simp [Immediate.placeholder, Immediate.render, next]
  | address =>
      rw [kind] at replaced
      rw [← replaced rfl]
      simp [Immediate.placeholder, Immediate.render, next]
  | highAddress =>
      have around (digits : String) :
          "($FF" ++ digits ++ ")" = "(" ++ ("$FF" ++ digits) ++ ")" := by
        rw [← String.append_assoc]
        rfl
      rw [stack (by rw [kind]; decide), jump (by rw [kind]; decide), around,
        Operation.replace_highAddress kind]
      simp [Immediate.placeholder, Immediate.render]
  | relative =>
      rw [Operation.startsWith_mnemonic_iff.mpr kind]
      rw [kind] at stack replaced
      rw [stack (by decide), ← replaced rfl]
      simp [Immediate.placeholder, Immediate.render, next]
  | offset =>
      rw [kind] at jump replaced
      rw [jump (by decide), ← replaced rfl]
      simp [Immediate.placeholder, Immediate.render]

/-- The line of an operation, made from the table.  Two bytes behind the first one are
read, whether or not they are needed. -/
def ofTable? (read? : UInt16 -> Option UInt8) (address : UInt16) (operation : Operation) :
    Option Disassembly := do
  let low <- read? (address + 1)
  let high <- read? (address + 2)
  some ⟨address, operation.length, fill operation.mnemonic address low high⟩

/-- The line of the instruction at an address, made from the table. -/
def lineAt? (read? : UInt16 -> Option UInt8) (address : UInt16) : Option Disassembly := do
  let first <- read? address
  match Opcode.decode first with
  | .operation operation => ofTable? read? address operation
  | .extended => do
      let selector <- read? (address + 1)
      ofTable? read? address (.decodeExtended selector)
  | .undefined => some ⟨address, 1, "DB $" ++ Text.hexByte first⟩

/-- A line that is made from the table is the line of the instruction. -/
theorem lineAt?_eq {read? : UInt16 -> Option UInt8} {read : UInt16 -> UInt8}
    (answers : ∀ address, read? address = some (read address)) (address : UInt16) :
    lineAt? read? address = some (lineAt read address) := by
  have made (operation : Operation) :
      ofTable? read? address operation =
        some (ofOperation read address (address + 1) operation) := by
    rw [ofTable?, answers, answers, Option.bind_eq_bind, Option.bind_some, Option.bind_some,
      fill_mnemonic]
    rfl
  rw [lineAt?, answers, Option.bind_eq_bind, Option.bind_some, lineAt]
  cases decoded : Opcode.decode (read address) with
  | operation operation => exact made operation
  | extended =>
      have bare := (Operation.length_decodeExtended (read (address + 1))).2
      rw [answers, Option.bind_some, made, ofOperation, ofOperation, bare]
      rfl
  | undefined => rfl

end Disassembly

end Dmg
