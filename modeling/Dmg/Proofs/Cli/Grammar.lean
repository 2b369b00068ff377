import Dmg.Cli.Arguments
import Dmg.Proofs.Text.Numeral

/-!
# The grammar of the command line

A command line is written as a sequence of items, each of them two words long or one.
The sequences that are accepted are told by what is written in them and not by how they
are read: the words that stand for themselves are one or two, the second of them and every
value of `--break` is a numeral, and the options say what their values say.  Nothing else
is accepted, and of everything else the leftmost item that fails is the error.

The reader takes one item after the other from the beginning of the words, so any command
line is a sequence of items up to a place where no item can be taken.
-/

namespace Dmg

namespace Cli

/-! ## Items as they are written -/

/-- A word that stands for itself does not begin like an option. -/
def IsPlain (text : String) : Prop :=
  ¬['-', '-'] <+: text.toList

theorem looksLikeOption_eq_false_iff {text : String} :
    looksLikeOption text = false ↔ IsPlain text := by
  rw [looksLikeOption, IsPlain]
  split
  · next rest same =>
    rw [same]
    simp [List.cons_prefix_cons]
  · next other =>
    simp only [true_iff]
    rintro ⟨rest, same⟩
    exact other rest same.symm

theorem looksLikeOption_eq_true_iff {text : String} :
    looksLikeOption text = true ↔ ['-', '-'] <+: text.toList := by
  have plain := @looksLikeOption_eq_false_iff text
  rw [← Bool.not_eq_true] at plain
  exact not_iff_not.mp plain

namespace OptionName

theorem ofText?_text (name : OptionName) : ofText? name.text = some name := by
  cases name <;> rfl

theorem text_of_ofText? {word : String} {name : OptionName} (found : ofText? word = some name) :
    word = name.text := by
  unfold ofText? at found
  split at found
  · next same =>
    cases found
    exact same
  · split at found
    · next same =>
      cases found
      exact same
    · split at found
      · next same =>
        cases found
        exact same
      · cases found

theorem marked_text (name : OptionName) : ['-', '-'] <+: name.text.toList := by
  cases name <;> decide

end OptionName

namespace Item

def words : Item -> List String
  | option name value => [name.text, value]
  | word text => [text]

/-- The value of any option is parseable; another word may not look like an option. -/
def IsWritten : Item -> Prop
  | option _ _ => True
  | word text => IsPlain text

/-- What an item says that stands for itself. -/
def word? : Item -> Option String
  | option _ _ => none
  | word text => some text

def value? (name : OptionName) : Item -> Option String
  | option other value => if other = name then some value else none
  | word _ => none

end Item

/-- A command line that is written item after item. -/
def written (items : List Item) : List String :=
  items.flatMap Item.words

/-- The words that stand for themselves, in their order. -/
def wordsOf (items : List Item) : List String :=
  items.filterMap Item.word?

/-- The values of an option, in their order. -/
def valuesOf (name : OptionName) (items : List Item) : List String :=
  items.filterMap (Item.value? name)

/-- A text is an address in hexadecimal digits, with one of two marks or with none. -/
def IsAddress (text : String) (address : UInt16) : Prop :=
  ∃ mark digits, mark ∈ [[], ['0', 'x'], ['$']] ∧ text.toList = mark ++ digits ∧
    Text.IsNumeral 16 0xFFFF digits address.toNat

def IsCount (text : String) (count : Nat) : Prop :=
  Text.IsNumeral 10 0xFFFFFFFF text.toList count

/-- The command lines that are accepted, and what they ask for. -/
structure Accepted (items : List Item) (options : Options) : Prop where
  plain : ∀ text ∈ wordsOf items, IsPlain text
  /-- One word or two: the cartridge, and how many frames there are to be. -/
  words : (wordsOf items = [options.rom] ∧ options.frames = 60) ∨
    ∃ text, wordsOf items = [options.rom, text] ∧ IsCount text options.frames
  boot : options.boot = (valuesOf .boot items).getLast?
  dump : options.dump = (valuesOf .dump items).getLast?
  breakpoints : List.Forall₂ IsAddress (valuesOf .breakpoint items) options.breakpoints

/-- The item that comes next fails, for the given reason, behind those that have been
read. -/
inductive Fails (before : List Item) : List String -> ArgumentError -> Prop where
  | missingValue (name : OptionName) : Fails before [name.text] (.missingValue name)
  | unknownOption {word : String} (rest : List String) (marked : ['-', '-'] <+: word.toList)
      (unknown : ∀ name : OptionName, word ≠ name.text) :
      Fails before (word :: rest) (.unknownOption word)
  | address {value : String} {cause : Text.NumeralError} (rest : List String)
      (refused : Text.IsRefused 16 0xFFFF (addressDigits value) cause) :
      Fails before ("--break" :: value :: rest) (.address value cause)
  | frameCount {word : String} {cause : Text.NumeralError} (rest : List String)
      (plain : IsPlain word) (second : (wordsOf before).length = 1)
      (refused : Text.IsRefused 10 0xFFFFFFFF word.toList cause) :
      Fails before (word :: rest) (.frameCount word cause)
  | unexpected {word : String} (rest : List String) (plain : IsPlain word)
      (third : 2 <= (wordsOf before).length) : Fails before (word :: rest) (.unexpected word)

/-- No item fails. -/
structure Parseable (items : List Item) : Prop where
  areWritten : ∀ item ∈ items, item.IsWritten
  passes : ∀ early late, items = early ++ late -> ∀ refusal, ¬Fails early (written late) refusal

/-- Two sequences of items say the same of each option, and their words are the same, in
the same order.  What the items of one field stand between is left open. -/
structure SameFields (first second : List Item) : Prop where
  words : wordsOf second = wordsOf first
  values : ∀ name, valuesOf name second = valuesOf name first

theorem Accepted.sameFields {first second : List Item} {options : Options}
    (accepted : Accepted first options) (same : SameFields first second) :
    Accepted second options := by
  refine ⟨?_, ?_, ?_, ?_, ?_⟩
  · rw [same.words]
    exact accepted.plain
  · rw [same.words]
    exact accepted.words
  · rw [same.values]
    exact accepted.boot
  · rw [same.values]
    exact accepted.dump
  · rw [same.values]
    exact accepted.breakpoints

/-! ## Addresses and counts -/

theorem exists_mark_addressDigits (text : String) :
    ∃ mark, mark ∈ [[], ['0', 'x'], ['$']] ∧ text.toList = mark ++ addressDigits text := by
  rw [addressDigits]
  split
  · next digits same => exact ⟨['0', 'x'], by simp, same⟩
  · next digits same => exact ⟨['$'], by simp, same⟩
  · exact ⟨[], by simp, rfl⟩

/-- No numeral begins like a mark, so the digits of an address can be told from its
mark. -/
theorem addressDigits_eq_of_isNumeral {text : String} {mark digits : List Char} {limit value : Nat}
    (known : mark ∈ [[], ['0', 'x'], ['$']]) (split : text.toList = mark ++ digits)
    (numeral : Text.IsNumeral 16 limit digits value) : addressDigits text = digits := by
  rw [addressDigits, split]
  simp only [List.mem_cons, List.not_mem_nil, or_false] at known
  rcases known with rfl | rfl | rfl
  · rcases numeral with ⟨body, unsigned, -, ⟨values, found, -⟩, -⟩
    rw [List.nil_append]
    split
    · next rest =>
      cases unsigned
      rcases found with _ | ⟨-, _ | ⟨stray, -⟩⟩
      cases stray
    · next rest =>
      cases unsigned
      rcases found with _ | ⟨stray, -⟩
      cases stray
    · rfl
  · rfl
  · rfl

theorem readAddress_eq_ok_iff {text : String} {address : UInt16} :
    readAddress text = .ok address ↔ IsAddress text address := by
  have bound := address.toNat_lt
  rw [readAddress]
  constructor
  · intro read
    split at read
    · next value found =>
      cases read
      rcases exists_mark_addressDigits text with ⟨mark, known, split⟩
      have numeral := Text.readNumeral_eq_ok_iff.mp found
      have within : value <= 0xFFFF := by
        rcases numeral with ⟨-, -, -, -, within⟩
        exact within
      have same : (UInt16.ofNat value).toNat = value := by
        rw [UInt16.toNat_ofNat']
        exact Nat.mod_eq_of_lt (by omega)
      refine ⟨mark, _, known, split, ?_⟩
      rw [same]
      exact numeral
    · cases read
  · rintro ⟨mark, digits, known, split, numeral⟩
    rw [addressDigits_eq_of_isNumeral known split numeral,
      Text.readNumeral_eq_ok_iff.mpr numeral]
    exact congrArg Except.ok UInt16.ofNat_toNat

theorem readAddress_eq_error_iff {text : String} {refusal : ArgumentError} :
    readAddress text = .error refusal ↔
      ∃ cause, Text.IsRefused 16 0xFFFF (addressDigits text) cause ∧
        refusal = .address text cause := by
  simp only [← Text.readNumeral_eq_error_iff]
  rw [readAddress]
  cases Text.readNumeral 16 0xFFFF (addressDigits text) with
  | ok value => simp
  | error cause => simp [eq_comm]

theorem readFrames_eq_ok_iff {text : String} {count : Nat} :
    readFrames text = .ok count ↔ IsCount text count := by
  rw [IsCount, ← Text.readNumeral_eq_ok_iff, readFrames, frameLimit]
  cases Text.readNumeral 10 0xFFFFFFFF text.toList <;> simp

theorem readFrames_eq_error_iff {text : String} {refusal : ArgumentError} :
    readFrames text = .error refusal ↔
      ∃ cause, Text.IsRefused 10 0xFFFFFFFF text.toList cause ∧
        refusal = .frameCount text cause := by
  simp only [← Text.readNumeral_eq_error_iff]
  rw [readFrames, frameLimit]
  cases Text.readNumeral 10 0xFFFFFFFF text.toList with
  | ok value => simp
  | error cause => simp [eq_comm]

/-! ## Taking items -/

theorem ofText?_of_isPlain {text : String} (plain : IsPlain text) :
    OptionName.ofText? text = none := by
  cases found : OptionName.ofText? text with
  | none => rfl
  | some name =>
      rw [OptionName.text_of_ofText? found] at plain
      exact absurd name.marked_text plain

theorem takeItem_of_isPlain {text : String} (plain : IsPlain text) (rest : List String) :
    takeItem text rest = .ok (.word text, rest) := by
  rw [takeItem.eq_def, ofText?_of_isPlain plain]
  dsimp only
  rw [looksLikeOption_eq_false_iff.mpr plain]
  rfl

theorem takeItem_option (name : OptionName) (value : String) (rest : List String) :
    takeItem name.text (value :: rest) = .ok (.option name value, rest) := by
  rw [takeItem.eq_def, OptionName.ofText?_text]

/-- An item that is taken is written at the beginning of what it is taken from. -/
theorem words_of_takeItem {first : String} {rest others : List String} {item : Item}
    (taken : takeItem first rest = .ok (item, others)) :
    item.IsWritten ∧ first :: rest = item.words ++ others := by
  rw [takeItem.eq_def] at taken
  split at taken
  · next name value others found =>
    cases taken
    rw [OptionName.text_of_ofText? found]
    exact ⟨trivial, rfl⟩
  · cases taken
  · split at taken
    · cases taken
    · next plain =>
      cases taken
      exact ⟨looksLikeOption_eq_false_iff.mp (Bool.eq_false_iff.mpr plain), rfl⟩

/-- Where no item can be taken, one fails. -/
theorem fails_of_takeItem {first : String} {rest : List String} {refusal : ArgumentError}
    (refused : takeItem first rest = .error refusal) (before : List Item) :
    Fails before (first :: rest) refusal := by
  rw [takeItem.eq_def] at refused
  split at refused
  · cases refused
  · next name found =>
    cases refused
    rw [OptionName.text_of_ofText? found]
    exact .missingValue name
  · next unknown =>
    split at refused
    · next marked =>
      cases refused
      refine .unknownOption _ (looksLikeOption_eq_true_iff.mp marked) fun name same => ?_
      rw [same, OptionName.ofText?_text] at unknown
      cases unknown
    · cases refused

/-- Every command line is a sequence of items up to a place where no item can be taken. -/
theorem exists_written (arguments : List String) :
    ∃ items rest, arguments = written items ++ rest ∧ (∀ item ∈ items, item.IsWritten) ∧
      (rest = [] ∨
        ∃ first others refusal, rest = first :: others ∧
          takeItem first others = .error refusal) := by
  induction length : arguments.length using Nat.strong_induction_on generalizing arguments with
  | _ count inductionHypothesis =>
      cases arguments with
      | nil => exact ⟨[], [], rfl, by simp, Or.inl rfl⟩
      | cons first rest =>
          cases taken : takeItem first rest with
          | error refusal =>
              exact ⟨[], first :: rest, rfl, by simp, Or.inr ⟨first, rest, refusal, rfl, taken⟩⟩
          | ok found =>
              rcases found with ⟨item, others⟩
              have shorter : others.length < count := by
                have bound := length_takeItem taken
                rw [List.length_cons] at length
                omega
              rcases words_of_takeItem taken with ⟨itemWritten, split⟩
              rcases inductionHypothesis _ shorter others rfl with
                ⟨items, last, remaining, areWritten, ends⟩
              refine ⟨item :: items, last, ?_, ?_, ends⟩
              · rw [split, remaining, written, written, List.flatMap_cons, List.append_assoc]
              · exact List.forall_mem_cons.mpr ⟨itemWritten, areWritten⟩

namespace Draft

/-! ## Reading items -/

theorem addAll_cons_of_taken {first : String} {rest others : List String} {item : Item}
    (taken : takeItem first rest = .ok (item, others)) (draft : Draft) :
    draft.addAll (first :: rest) = (draft.addItem item).bind fun next => next.addAll others := by
  rw [addAll]
  split
  · next refused =>
    rw [taken] at refused
    cases refused
  · next found =>
    rw [taken] at found
    cases found
    cases draft.addItem item <;> rfl

theorem addAll_cons_of_refused {first : String} {rest : List String} {refusal : ArgumentError}
    (refused : takeItem first rest = .error refusal) (draft : Draft) :
    draft.addAll (first :: rest) = .error refusal := by
  rw [addAll]
  split
  · next other =>
    rw [refused] at other
    cases other
    rfl
  · next found =>
    rw [refused] at found
    cases found

theorem addAll_words {item : Item} (itemWritten : item.IsWritten) (draft : Draft)
    (rest : List String) :
    draft.addAll (item.words ++ rest) = (draft.addItem item).bind fun next => next.addAll rest := by
  cases item with
  | option name value => exact addAll_cons_of_taken (takeItem_option name value rest) draft
  | word text => exact addAll_cons_of_taken (takeItem_of_isPlain itemWritten rest) draft

def addItems (draft : Draft) (items : List Item) : Except ArgumentError Draft :=
  items.foldlM addItem draft

theorem addItems_cons (draft : Draft) (item : Item) (items : List Item) :
    draft.addItems (item :: items) =
      (draft.addItem item).bind fun next => next.addItems items :=
  rfl

theorem addItems_append (draft : Draft) (early late : List Item) :
    draft.addItems (early ++ late) =
      (draft.addItems early).bind fun next => next.addItems late :=
  List.foldlM_append

theorem addAll_written {items : List Item} (areWritten : ∀ item ∈ items, item.IsWritten)
    (draft : Draft) (rest : List String) :
    draft.addAll (written items ++ rest) =
      (draft.addItems items).bind fun next => next.addAll rest := by
  induction items generalizing draft with
  | nil => rfl
  | cons item items inductionHypothesis =>
      rcases List.forall_mem_cons.mp areWritten with ⟨first, others⟩
      rw [written, List.flatMap_cons, List.append_assoc, addAll_words first, addItems_cons]
      cases draft.addItem item with
      | error refusal => rfl
      | ok next => exact inductionHypothesis others next

/-- The first item that is refused stands behind items that are not. -/
theorem exists_refused {draft : Draft} {items : List Item} {refusal : ArgumentError}
    (refused : draft.addItems items = .error refusal) :
    ∃ early item late next, items = early ++ item :: late ∧ draft.addItems early = .ok next ∧
      next.addItem item = .error refusal := by
  induction items generalizing draft with
  | nil => cases refused
  | cons item items inductionHypothesis =>
      rw [addItems_cons] at refused
      cases added : draft.addItem item with
      | error other =>
          rw [added] at refused
          cases refused
          exact ⟨[], item, items, draft, rfl, rfl, added⟩
      | ok next =>
          rw [added] at refused
          rcases inductionHypothesis refused with ⟨early, last, late, final, rfl, before, after⟩
          refine ⟨item :: early, last, late, final, rfl, ?_, after⟩
          rw [addItems_cons, added]
          exact before

end Draft

end Cli

end Dmg
