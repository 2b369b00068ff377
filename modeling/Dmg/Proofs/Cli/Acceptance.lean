import Dmg.Proofs.Cli.Grammar
import Mathlib.Data.List.Induction

/-!
# Which command lines are accepted

The reader keeps a draft and takes in one item after the other.  After every item the
draft says what the items so far have said.  An item that is refused is one that fails
there, and items of which none fails are all taken in.  So what is read is what the
grammar says, and the error is that of the leftmost item that fails.
-/

namespace Dmg

namespace Cli

/-! ## What a draft says -/

@[simp] theorem wordsOf_append (early late : List Item) :
    wordsOf (early ++ late) = wordsOf early ++ wordsOf late :=
  List.filterMap_append

@[simp] theorem wordsOf_option (name : OptionName) (value : String) :
    wordsOf [.option name value] = [] :=
  rfl

@[simp] theorem wordsOf_word (text : String) : wordsOf [.word text] = [text] :=
  rfl

@[simp] theorem valuesOf_append (name : OptionName) (early late : List Item) :
    valuesOf name (early ++ late) = valuesOf name early ++ valuesOf name late :=
  List.filterMap_append

@[simp] theorem valuesOf_word (name : OptionName) (text : String) :
    valuesOf name [.word text] = [] :=
  rfl

@[simp] theorem valuesOf_option (name other : OptionName) (value : String) :
    valuesOf name [.option other value] = if other = name then [value] else [] := by
  by_cases same : other = name <;> simp [valuesOf, Item.value?, same]

/-- The words so far have named the cartridge and the number of frames, or not yet. -/
inductive Names : List String -> Option String -> Option Nat -> Prop where
  | nothing : Names [] none none
  | rom (rom : String) : Names [rom] (some rom) none
  | frames (rom : String) {text : String} {count : Nat} (counted : IsCount text count) :
      Names [rom, text] (some rom) (some count)

/-- A draft says what some items have said. -/
structure ParsedFields (items : List Item) (draft : Draft) : Prop where
  words : Names (wordsOf items) draft.rom draft.frames
  boot : draft.boot = (valuesOf .boot items).getLast?
  dump : draft.dump = (valuesOf .dump items).getLast?
  breakpoints : List.Forall₂ IsAddress (valuesOf .breakpoint items) draft.breakpoints

namespace Draft

theorem parsedFields_empty : ParsedFields [] empty :=
  ⟨.nothing, rfl, rfl, .nil⟩

end Draft

theorem ParsedFields.addWord {items : List Item} {draft next : Draft}
    (parsed : ParsedFields items draft)
    {text : String} (added : draft.addWord text = .ok next) :
    ParsedFields (items ++ [.word text]) next := by
  rcases parsed with ⟨words, boot, dump, breakpoints⟩
  rcases draft with ⟨rom, frames, bootOption, addresses, dumpOption⟩
  dsimp only at words boot dump breakpoints
  have others (name : OptionName) :
      valuesOf name (items ++ [.word text]) = valuesOf name items := by
    simp
  generalize named : wordsOf items = before at words
  rw [Draft.addWord] at added
  cases words with
  | nothing =>
      cases added
      refine ⟨?_, ?_, ?_, ?_⟩
      · rw [wordsOf_append, named]
        exact .rom text
      all_goals rwa [others]
  | rom rom =>
      dsimp only at added
      cases read : readFrames text with
      | error refusal =>
          rw [read] at added
          cases added
      | ok count =>
          rw [read] at added
          cases added
          refine ⟨?_, ?_, ?_, ?_⟩
          · rw [wordsOf_append, named]
            exact .frames rom (readFrames_eq_ok_iff.mp read)
          all_goals rwa [others]
  | frames => cases added

/-- An item that is taken in is said by the draft, beside what was said before. -/
theorem ParsedFields.addItem {items : List Item} {draft next : Draft}
    (parsed : ParsedFields items draft) {item : Item}
    (added : draft.addItem item = .ok next) : ParsedFields (items ++ [item]) next := by
  cases item with
  | word text => exact parsed.addWord added
  | option name value =>
      have words : wordsOf (items ++ [.option name value]) = wordsOf items := by simp
      cases name with
      | boot =>
          cases added
          exact ⟨words ▸ parsed.words, by simp, by simpa using parsed.dump,
            by simpa using parsed.breakpoints⟩
      | dump =>
          cases added
          exact ⟨words ▸ parsed.words, by simpa using parsed.boot, by simp,
            by simpa using parsed.breakpoints⟩
      | breakpoint =>
          rw [Draft.addItem] at added
          cases read : readAddress value with
          | error refusal =>
              rw [read] at added
              cases added
          | ok address =>
              rw [read] at added
              cases added
              refine ⟨words ▸ parsed.words, by simpa using parsed.boot,
                by simpa using parsed.dump, ?_⟩
              rw [valuesOf_append, valuesOf_option, if_pos rfl]
              exact List.rel_append parsed.breakpoints
                (.cons (readAddress_eq_ok_iff.mp read) .nil)

/-- After all items the draft says what they have said. -/
theorem parsedFields_of_addItems {items : List Item} {draft : Draft}
    (read : Draft.empty.addItems items = .ok draft) : ParsedFields items draft := by
  induction items using List.reverseRecOn generalizing draft with
  | nil =>
      cases read
      exact Draft.parsedFields_empty
  | append_singleton items item inductionHypothesis =>
      rw [Draft.addItems_append] at read
      cases before : Draft.empty.addItems items with
      | error refusal =>
          rw [before] at read
          cases read
      | ok middle =>
          rw [before] at read
          change (middle.addItem item).bind Except.ok = .ok draft at read
          cases added : middle.addItem item with
          | error refusal =>
              rw [added] at read
              cases read
          | ok next =>
              rw [added] at read
              cases read
              exact (inductionHypothesis before).addItem added

/-! ## Items that fail -/

/-- An item that is refused fails, whatever follows it. -/
theorem ParsedFields.fails_of_refused {items : List Item} {draft : Draft}
    (parsed : ParsedFields items draft)
    {item : Item} (itemWritten : item.IsWritten) {refusal : ArgumentError}
    (refused : draft.addItem item = .error refusal) (rest : List String) :
    Fails items (item.words ++ rest) refusal := by
  cases item with
  | option name value =>
      cases name with
      | boot => cases refused
      | dump => cases refused
      | breakpoint =>
          rw [Draft.addItem] at refused
          cases read : readAddress value with
          | ok address =>
              rw [read] at refused
              cases refused
          | error other =>
              rw [read] at refused
              cases refused
              rcases readAddress_eq_error_iff.mp read with ⟨cause, why, rfl⟩
              exact .address rest why
  | word text =>
      have words := parsed.words
      rw [Draft.addItem, Draft.addWord] at refused
      generalize draft.rom = rom at words refused
      generalize draft.frames = frames at words refused
      generalize named : wordsOf items = before at words
      cases words with
      | nothing => cases refused
      | rom rom =>
          dsimp only at refused
          cases read : readFrames text with
          | ok count =>
              rw [read] at refused
              cases refused
          | error other =>
              rw [read] at refused
              cases refused
              rcases readFrames_eq_error_iff.mp read with ⟨cause, why, rfl⟩
              exact .frameCount rest itemWritten (by rw [named]; rfl) why
      | frames =>
          cases refused
          exact .unexpected rest itemWritten (by rw [named]; exact Nat.le_refl 2)

/-- What fails is the error, whatever follows it. -/
theorem ParsedFields.addAll_of_fails {items : List Item} {draft : Draft}
    (parsed : ParsedFields items draft)
    {rest : List String} {refusal : ArgumentError} (fails : Fails items rest refusal) :
    draft.addAll rest = .error refusal := by
  have words := parsed.words
  cases fails with
  | missingValue name =>
      apply Draft.addAll_cons_of_refused
      rw [takeItem.eq_def, OptionName.ofText?_text]
  | @unknownOption word rest marked unknown =>
      apply Draft.addAll_cons_of_refused
      have none : OptionName.ofText? word = none := by
        cases found : OptionName.ofText? word with
        | none => rfl
        | some name => exact absurd (OptionName.text_of_ofText? found) (unknown name)
      rw [takeItem.eq_def, none]
      exact if_pos (looksLikeOption_eq_true_iff.mpr marked)
  | @address value cause rest refused =>
      have taken : takeItem "--break" (value :: rest) = .ok (.option .breakpoint value, rest) :=
        takeItem_option .breakpoint value rest
      rw [Draft.addAll_cons_of_taken taken, Draft.addItem,
        readAddress_eq_error_iff.mpr ⟨cause, refused, rfl⟩]
      rfl
  | @frameCount word cause rest plain second refused =>
      rw [Draft.addAll_cons_of_taken (takeItem_of_isPlain plain rest), Draft.addItem, Draft.addWord]
      generalize draft.rom = rom at words
      generalize draft.frames = frames at words
      generalize wordsOf items = before at words second
      cases words with
      | rom rom =>
          dsimp only
          rw [readFrames_eq_error_iff.mpr ⟨cause, refused, rfl⟩]
          rfl
      | nothing => cases second
      | frames => cases second
  | @unexpected word rest plain third =>
      rw [Draft.addAll_cons_of_taken (takeItem_of_isPlain plain rest), Draft.addItem, Draft.addWord]
      generalize draft.rom = rom at words
      generalize draft.frames = frames at words
      generalize wordsOf items = before at words third
      cases words with
      | frames => rfl
      | nothing => exact absurd third (by decide)
      | rom => exact absurd third (by simp)

/-- Items of which none fails are all taken in, and no others are. -/
theorem parseable_iff {items : List Item} :
    Parseable items ↔
      (∀ item ∈ items, item.IsWritten) ∧ ∃ draft, Draft.empty.addItems items = .ok draft := by
  constructor
  · intro parseable
    refine ⟨parseable.areWritten, ?_⟩
    cases read : Draft.empty.addItems items with
    | ok draft => exact ⟨draft, rfl⟩
    | error refusal =>
        rcases Draft.exists_refused read with ⟨early, item, late, next, split, before, refused⟩
        have itemWritten : item.IsWritten := parseable.areWritten item (by simp [split])
        have parsed := parsedFields_of_addItems before
        exact absurd (parsed.fails_of_refused itemWritten refused (written late))
          (parseable.passes early (item :: late) split refusal)
  · rintro ⟨areWritten, draft, read⟩
    refine ⟨areWritten, ?_⟩
    rintro early late rfl refusal fails
    rw [Draft.addItems_append] at read
    cases before : Draft.empty.addItems early with
    | error other =>
        rw [before] at read
        cases read
    | ok middle =>
        rw [before] at read
        change middle.addItems late = .ok draft at read
        have lateWritten : ∀ item ∈ late, item.IsWritten :=
          fun item member => areWritten item (List.mem_append_right early member)
        have taken := Draft.addAll_written lateWritten middle []
        rw [List.append_nil, (parsedFields_of_addItems before).addAll_of_fails fails, read] at taken
        have finished : draft.addAll [] = .ok draft := by rw [Draft.addAll]
        change .error refusal = draft.addAll [] at taken
        rw [finished] at taken
        cases taken

/-! ## Command lines -/

theorem parse_written {items : List Item} (areWritten : ∀ item ∈ items, item.IsWritten)
    (rest : List String) :
    parse (written items ++ rest) =
      ((Draft.empty.addItems items).bind fun draft => draft.addAll rest).bind Draft.finish := by
  rw [parse, Draft.addAll_written areWritten]
  cases (Draft.empty.addItems items).bind fun draft => draft.addAll rest <;> rfl

/-- What an accepted command line writes is written item by item. -/
theorem Accepted.areWritten {items : List Item} {options : Options}
    (accepted : Accepted items options) : ∀ item ∈ items, item.IsWritten := by
  intro item member
  cases item with
  | option name value => trivial
  | word text => exact accepted.plain text (List.mem_filterMap.mpr ⟨_, member, rfl⟩)

/-- None of its values is refused. -/
theorem Accepted.exists_address {early late : List Item} {value : String} {options : Options}
    (accepted : Accepted (early ++ .option .breakpoint value :: late) options) :
    ∃ address, IsAddress value address := by
  have values := accepted.breakpoints
  rw [List.append_cons, valuesOf_append, valuesOf_append, valuesOf_option, if_pos rfl,
    List.append_assoc] at values
  have rest := List.forall₂_drop (valuesOf .breakpoint early).length values
  rw [List.drop_left] at rest
  rcases List.forall₂_cons_left_iff.mp rest with ⟨address, -, named, -⟩
  exact ⟨address, named⟩

/-- Its second word is a number of frames, and it has no third one. -/
theorem Accepted.counted {early late : List Item} {text : String} {options : Options}
    (accepted : Accepted (early ++ .word text :: late) options) {rom : String}
    (second : wordsOf early = [rom]) : ∃ count, IsCount text count := by
  have words := accepted.words
  rw [List.append_cons, wordsOf_append, wordsOf_append, wordsOf_word, second,
    List.append_assoc, List.singleton_append, List.singleton_append] at words
  rcases words with ⟨one, -⟩ | ⟨other, two, counted⟩
  · rw [List.cons.injEq] at one
    cases one.2
  · rw [List.cons.injEq, List.cons.injEq] at two
    rw [← two.2.1] at counted
    exact ⟨_, counted⟩

theorem Accepted.length_lt {early late : List Item} {text : String} {options : Options}
    (accepted : Accepted (early ++ .word text :: late) options) : (wordsOf early).length < 2 := by
  have bound : (wordsOf (early ++ .word text :: late)).length <= 2 := by
    rcases accepted.words with ⟨one, -⟩ | ⟨other, two, -⟩
    · rw [one]
      exact Nat.le_succ 1
    · rw [two]
      exact Nat.le_refl 2
  rw [List.append_cons, wordsOf_append, wordsOf_append, wordsOf_word, List.length_append,
    List.length_append, List.length_singleton] at bound
  omega

theorem Accepted.parseable {items : List Item} {options : Options}
    (accepted : Accepted items options) : Parseable items := by
  refine parseable_iff.mpr ⟨accepted.areWritten, ?_⟩
  cases read : Draft.empty.addItems items with
  | ok draft => exact ⟨draft, rfl⟩
  | error refusal =>
      exfalso
      rcases Draft.exists_refused read with ⟨early, item, late, next, rfl, before, refused⟩
      have itemWritten : item.IsWritten := accepted.areWritten item (by simp)
      have fails := (parsedFields_of_addItems before).fails_of_refused itemWritten refused []
      cases item with
      | option name value =>
          cases name with
          | boot => cases refused
          | dump => cases refused
          | breakpoint =>
              rcases accepted.exists_address with ⟨address, named⟩
              rw [Draft.addItem, readAddress_eq_ok_iff.mpr named] at refused
              cases refused
      | word text =>
          have words := (parsedFields_of_addItems before).words
          have few := accepted.length_lt
          rw [Draft.addItem, Draft.addWord] at refused
          generalize next.rom = rom at words refused
          generalize next.frames = frames at words refused
          generalize named : wordsOf early = said at words few
          cases words with
          | nothing => cases refused
          | rom rom =>
              rcases accepted.counted named with ⟨count, counted⟩
              dsimp only at refused
              rw [readFrames_eq_ok_iff.mpr counted] at refused
              cases refused
          | frames => exact absurd few (Nat.lt_irrefl 2)

theorem plain_of_areWritten {items : List Item} (areWritten : ∀ item ∈ items, item.IsWritten) :
    ∀ text ∈ wordsOf items, IsPlain text := by
  intro text member
  rcases List.mem_filterMap.mp member with ⟨item, inside, found⟩
  cases item with
  | option name value => cases found
  | word other =>
      cases found
      exact areWritten _ inside

theorem rightUnique_isAddress : Relator.RightUnique IsAddress := by
  intro text first second one other
  rw [← readAddress_eq_ok_iff] at one other
  exact Except.ok.inj (one.symm.trans other)

theorem rightUnique_isCount : Relator.RightUnique IsCount := by
  intro text first second one other
  rw [← readFrames_eq_ok_iff] at one other
  exact Except.ok.inj (one.symm.trans other)

/-- The draft is finished as the options that the items are accepted with. -/
theorem ParsedFields.finish_eq_ok_iff {items : List Item} {draft : Draft}
    (parsed : ParsedFields items draft)
    (areWritten : ∀ item ∈ items, item.IsWritten) {options : Options} :
    draft.finish = .ok options ↔ Accepted items options := by
  rcases parsed with ⟨words, boot, dump, breakpoints⟩
  rcases draft with ⟨rom, frames, bootOption, addresses, dumpOption⟩
  dsimp only at words boot dump breakpoints
  have plain := plain_of_areWritten areWritten
  have agrees (accepted : Accepted items options) :
      options.boot = bootOption ∧ options.dump = dumpOption ∧ options.breakpoints = addresses :=
    ⟨accepted.boot.trans boot.symm, accepted.dump.trans dump.symm,
      List.right_unique_forall₂' rightUnique_isAddress accepted.breakpoints breakpoints⟩
  generalize named : wordsOf items = given at words
  rw [Draft.finish]
  cases words with
  | nothing =>
      constructor
      · rintro ⟨⟩
      · intro accepted
        rcases accepted.words with ⟨one, -⟩ | ⟨text, two, -⟩
        · cases named.symm.trans one
        · cases named.symm.trans two
  | rom rom =>
      constructor
      · rintro ⟨⟩
        exact ⟨plain, Or.inl ⟨named, rfl⟩, boot, dump, breakpoints⟩
      · intro accepted
        rcases agrees accepted with ⟨sameBoot, sameDump, sameBreakpoints⟩
        rcases accepted.words with ⟨one, frames⟩ | ⟨text, two, -⟩
        · cases named.symm.trans one
          exact congrArg Except.ok
            (Options.ext rfl frames.symm sameBoot.symm sameBreakpoints.symm sameDump.symm)
        · cases named.symm.trans two
  | @frames rom text count counted =>
      constructor
      · rintro ⟨⟩
        exact ⟨plain, Or.inr ⟨text, named, counted⟩, boot, dump, breakpoints⟩
      · intro accepted
        rcases agrees accepted with ⟨sameBoot, sameDump, sameBreakpoints⟩
        rcases accepted.words with ⟨one, -⟩ | ⟨text, two, other⟩
        · cases named.symm.trans one
        · cases named.symm.trans two
          exact congrArg Except.ok (Options.ext rfl (rightUnique_isCount counted other)
            sameBoot.symm sameBreakpoints.symm sameDump.symm)

theorem ParsedFields.finish_eq_error_iff {items : List Item} {draft : Draft}
    (parsed : ParsedFields items draft)
    {refusal : ArgumentError} :
    draft.finish = .error refusal ↔ wordsOf items = [] ∧ refusal = .missingRom := by
  have words := parsed.words
  rw [Draft.finish]
  generalize draft.rom = rom at words
  generalize draft.frames = frames at words
  generalize wordsOf items = given at words
  cases words with
  | nothing => simp only [Except.error.injEq, true_and, eq_comm]
  | rom | frames => simp only [reduceCtorEq, false_and]

/-! ## Command lines -/

/-- What is read is the sequence of items that is written, and nothing else is. -/
theorem parse_eq_ok_iff {arguments : List String} {options : Options} :
    parse arguments = .ok options ↔
      ∃ items, arguments = written items ∧ Accepted items options := by
  constructor
  · intro read
    rcases exists_written arguments with ⟨items, rest, rfl, areWritten, ends⟩
    rw [parse_written areWritten] at read
    cases taken : Draft.empty.addItems items with
    | error refusal =>
        rw [taken] at read
        cases read
    | ok draft =>
        rw [taken] at read
        change (draft.addAll rest).bind Draft.finish = .ok options at read
        rcases ends with rfl | ⟨first, others, refusal, rfl, refused⟩
        · rw [Draft.addAll] at read
          refine ⟨items, List.append_nil _, ?_⟩
          exact ((parsedFields_of_addItems taken).finish_eq_ok_iff areWritten).mp read
        · rw [Draft.addAll_cons_of_refused refused] at read
          cases read
  · rintro ⟨items, rfl, accepted⟩
    rcases (parseable_iff.mp accepted.parseable).2 with ⟨draft, taken⟩
    have read := parse_written accepted.areWritten []
    rw [List.append_nil, taken] at read
    rw [read]
    change (draft.addAll []).bind Draft.finish = .ok options
    rw [Draft.addAll]
    exact ((parsedFields_of_addItems taken).finish_eq_ok_iff accepted.areWritten).mpr accepted

/-- The error is that of the first item that fails, and the cartridge is missed only where
no item fails. -/
theorem parse_eq_error_iff {arguments : List String} {refusal : ArgumentError} :
    parse arguments = .error refusal ↔
      (∃ items rest,
        arguments = written items ++ rest ∧ Parseable items ∧ Fails items rest refusal) ∨
      ∃ items, arguments = written items ∧ Parseable items ∧ wordsOf items = [] ∧
        refusal = .missingRom := by
  constructor
  · intro read
    rcases exists_written arguments with ⟨items, rest, rfl, areWritten, ends⟩
    rw [parse_written areWritten] at read
    cases taken : Draft.empty.addItems items with
    | error other =>
        rw [taken] at read
        cases read
        rcases Draft.exists_refused taken with ⟨early, item, late, next, rfl, before, refused⟩
        refine Or.inl ⟨early, written (item :: late) ++ rest, ?_, ?_, ?_⟩
        · rw [written, written, written, List.flatMap_append, List.append_assoc]
        · exact parseable_iff.mpr
            ⟨fun item member => areWritten item (List.mem_append_left _ member), next, before⟩
        · rw [written, List.flatMap_cons, List.append_assoc]
          exact (parsedFields_of_addItems before).fails_of_refused
            (areWritten item (by simp)) refused _
    | ok draft =>
        have parseable : Parseable items := parseable_iff.mpr ⟨areWritten, draft, taken⟩
        rw [taken] at read
        change (draft.addAll rest).bind Draft.finish = .error refusal at read
        rcases ends with rfl | ⟨first, others, other, rfl, refused⟩
        · rw [Draft.addAll] at read
          rcases (parsedFields_of_addItems taken).finish_eq_error_iff.mp read with ⟨none, rfl⟩
          exact Or.inr ⟨items, List.append_nil _, parseable, none, rfl⟩
        · rw [Draft.addAll_cons_of_refused refused] at read
          cases read
          exact Or.inl ⟨items, _, rfl, parseable, fails_of_takeItem refused items⟩
  · rintro (⟨items, rest, rfl, parseable, fails⟩ | ⟨items, rfl, parseable, none, rfl⟩)
    · rcases (parseable_iff.mp parseable).2 with ⟨draft, taken⟩
      rw [parse_written parseable.areWritten, taken]
      change (draft.addAll rest).bind Draft.finish = .error refusal
      rw [(parsedFields_of_addItems taken).addAll_of_fails fails]
      rfl
    · rcases (parseable_iff.mp parseable).2 with ⟨draft, taken⟩
      have read := parse_written parseable.areWritten []
      rw [List.append_nil, taken] at read
      rw [read]
      change (draft.addAll []).bind Draft.finish = .error .missingRom
      rw [Draft.addAll]
      exact (parsedFields_of_addItems taken).finish_eq_error_iff.mpr ⟨none, rfl⟩

/-- Exactly the grammar is accepted, with what its items say, in whichever order the items
of different fields stand.  Of every other command line the leftmost item that fails is the
error, and a missing cartridge is the error only where no item fails. -/
theorem parse_follows_grammar (arguments : List String) :
    (∀ options, parse arguments = .ok options ↔
      ∃ items, arguments = written items ∧ Accepted items options) ∧
    (∀ items other options, Accepted items options -> SameFields items other ->
      parse (written items) = .ok options ∧ parse (written other) = .ok options) ∧
    (∀ refusal, parse arguments = .error refusal ↔
      (∃ items rest,
        arguments = written items ++ rest ∧ Parseable items ∧ Fails items rest refusal) ∨
      ∃ items, arguments = written items ∧ Parseable items ∧ wordsOf items = [] ∧
        refusal = .missingRom) := by
  refine ⟨fun options => parse_eq_ok_iff, fun items other options accepted same => ?_,
    fun refusal => parse_eq_error_iff⟩
  exact ⟨parse_eq_ok_iff.mpr ⟨items, rfl, accepted⟩,
    parse_eq_ok_iff.mpr ⟨other, rfl, accepted.sameFields same⟩⟩

/-- A command line in which the value of an option looks like an option. -/
def mixedItems : List Item :=
  [.word "game.gb", .option .breakpoint "$c000", .option .boot "--dump", .word "120",
    .option .breakpoint "0x0150"]

/-- The same with its words at the end. -/
def sortedItems : List Item :=
  [.option .boot "--dump", .option .breakpoint "$c000", .option .breakpoint "0x0150",
    .word "game.gb", .word "120"]

theorem mixedItems_are_accepted :
    Accepted mixedItems ⟨"game.gb", 120, some "--dump", [0xC000, 0x0150], none⟩ where
  plain := by
    change ∀ text ∈ ["game.gb", "120"], IsPlain text
    simp only [List.mem_cons, List.not_mem_nil, or_false, forall_eq_or_imp, forall_eq]
    exact ⟨looksLikeOption_eq_false_iff.mp rfl, looksLikeOption_eq_false_iff.mp rfl⟩
  words := Or.inr ⟨"120", rfl, readFrames_eq_ok_iff.mp rfl⟩
  boot := rfl
  dump := rfl
  breakpoints := .cons (readAddress_eq_ok_iff.mp rfl) (.cons (readAddress_eq_ok_iff.mp rfl) .nil)

/-- Both orders are read alike, and of two items that fail the first one is the error. -/
theorem mixedItems_follow_grammar :
    parse ["game.gb", "--break", "$c000", "--boot", "--dump", "120", "--break", "0x0150"] =
        .ok ⟨"game.gb", 120, some "--dump", [0xC000, 0x0150], none⟩ ∧
      parse ["--boot", "--dump", "--break", "$c000", "--break", "0x0150", "game.gb", "120"] =
        .ok ⟨"game.gb", 120, some "--dump", [0xC000, 0x0150], none⟩ ∧
      parse ["game.gb", "--break", "zz", "--speed"] = .error (.address "zz" .invalidDigit) := by
  have same : SameFields mixedItems sortedItems := by
    refine ⟨rfl, fun name => ?_⟩
    cases name <;> rfl
  have parseable : Parseable [.word "game.gb"] := by
    refine parseable_iff.mpr ⟨?_, _, rfl⟩
    simp only [List.mem_singleton, forall_eq]
    exact looksLikeOption_eq_false_iff.mp rfl
  have fails : Fails [.word "game.gb"] ["--break", "zz", "--speed"]
      (.address "zz" .invalidDigit) :=
    .address ["--speed"] (Text.readNumeral_eq_error_iff.mp rfl)
  rcases (parse_follows_grammar []).2.1 mixedItems sortedItems _ mixedItems_are_accepted same with
    ⟨mixed, sorted⟩
  refine ⟨mixed, sorted, ((parse_follows_grammar _).2.2 _).mpr ?_⟩
  exact Or.inl ⟨_, _, rfl, parseable, fails⟩

end Cli

end Dmg
