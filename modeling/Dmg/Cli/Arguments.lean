import Dmg.Text.Hex
import Dmg.Text.Numeral

/-!
# The command line

A command line is a sequence of items: an option with its value, or a word that
stands for itself.  The first word names the cartridge and a second one gives
the number of frames.  Items are read from the left, and the first one that is
wrong is the error; only a command line without a wrong item can be found to
name no cartridge.
-/

namespace Dmg

namespace Cli

@[ext] structure Options where
  rom : String
  frames : Nat
  boot : Option String
  breakpoints : List UInt16
  /-- Where the last picture is to be written. -/
  dump : Option String
  deriving DecidableEq, Repr

/-- The options that take a value. -/
inductive OptionName where
  | boot
  | dump
  | breakpoint
  deriving DecidableEq, Repr

namespace OptionName

def text : OptionName -> String
  | boot => "--boot"
  | dump => "--dump"
  | breakpoint => "--break"

/-- The option that a word is, if it is one. -/
def ofText? (word : String) : Option OptionName :=
  if word = boot.text then some boot
  else if word = dump.text then some dump
  else if word = breakpoint.text then some breakpoint
  else none

end OptionName

inductive ArgumentError where
  | missingValue (option : OptionName)
  | unknownOption (word : String)
  | unexpected (word : String)
  | frameCount (word : String) (cause : Text.NumeralError)
  | address (word : String) (cause : Text.NumeralError)
  | missingRom
  deriving DecidableEq, Repr

def usage : String :=
  "usage: retroboy <rom> [frames] [--boot <path>] [--break <addr>]... [--dump <out.rgba>]"

namespace ArgumentError

/-- A remark with a reminder of how the program is used. -/
def withUsage (remark : String) : String :=
  remark ++ "\n" ++ usage

def message : ArgumentError -> String
  | missingValue option => withUsage (option.text ++ " needs a value")
  | unknownOption word => withUsage ("unknown option '" ++ word ++ "'")
  | unexpected word => withUsage ("unexpected argument '" ++ word ++ "'")
  | frameCount word _ => "invalid frame count '" ++ word ++ "'"
  | address word _ => "invalid address '" ++ word ++ "'"
  | missingRom => withUsage "no ROM path provided"

def cause? : ArgumentError -> Option Text.NumeralError
  | frameCount _ cause | address _ cause => some cause
  | _ => none

end ArgumentError

inductive Item where
  | option (name : OptionName) (value : String)
  | word (text : String)
  deriving DecidableEq, Repr

/-- Whether a word that is no option looks like one. -/
def looksLikeOption (word : String) : Bool :=
  match word.toList with
  | '-' :: '-' :: _ => true
  | _ => false

/-- The first item of a command line and what follows it.  The value of an
option may be any word. -/
def takeItem (first : String) (rest : List String) :
    Except ArgumentError (Item × List String) :=
  match OptionName.ofText? first, rest with
  | some name, value :: others => .ok (.option name value, others)
  | some name, [] => .error (.missingValue name)
  | none, _ =>
      if looksLikeOption first then .error (.unknownOption first)
      else .ok (.word first, rest)

theorem length_takeItem {first : String} {rest others : List String} {item : Item}
    (taken : takeItem first rest = .ok (item, others)) : others.length <= rest.length := by
  unfold takeItem at taken
  split at taken
  · simp only [Except.ok.injEq, Prod.mk.injEq] at taken
    exact taken.2 ▸ Nat.le_succ _
  · simp at taken
  · split at taken
    · simp at taken
    · simp only [Except.ok.injEq, Prod.mk.injEq] at taken
      exact taken.2 ▸ Nat.le_refl _

/-- The digits of an address without the mark that may stand before them. -/
def addressDigits (word : String) : List Char :=
  match word.toList with
  | '0' :: 'x' :: digits => digits
  | '$' :: digits => digits
  | digits => digits

/-- An address in hexadecimal digits. -/
def readAddress (word : String) : Except ArgumentError UInt16 :=
  match Text.readNumeral 16 0xFFFF (addressDigits word) with
  | .ok value => .ok (UInt16.ofNat value)
  | .error cause => .error (.address word cause)

/-- The largest number of frames that can be asked for. -/
def frameLimit : Nat := 0xFFFFFFFF

/-- A number of frames in decimal digits. -/
def readFrames (word : String) : Except ArgumentError Nat :=
  match Text.readNumeral 10 frameLimit word.toList with
  | .ok value => .ok value
  | .error cause => .error (.frameCount word cause)

/-- What the items so far have said. -/
@[ext] structure Draft where
  rom : Option String
  frames : Option Nat
  boot : Option String
  breakpoints : List UInt16
  dump : Option String
  deriving DecidableEq, Repr

namespace Draft

def empty : Draft := ⟨none, none, none, [], none⟩

/-- Take in what a word says, which depends on the words before it. -/
def addWord (draft : Draft) (word : String) : Except ArgumentError Draft :=
  match draft.rom, draft.frames with
  | none, _ => .ok { draft with rom := some word }
  | some _, none => (readFrames word).map fun count => { draft with frames := some count }
  | some _, some _ => .error (.unexpected word)

def addItem (draft : Draft) : Item -> Except ArgumentError Draft
  | .option .boot value => .ok { draft with boot := some value }
  | .option .dump value => .ok { draft with dump := some value }
  | .option .breakpoint value =>
      (readAddress value).map fun address =>
        { draft with breakpoints := draft.breakpoints ++ [address] }
  | .word text => draft.addWord text

def addAll (draft : Draft) : List String -> Except ArgumentError Draft
  | [] => .ok draft
  | first :: rest =>
      match taken : takeItem first rest with
      | .error refusal => .error refusal
      | .ok (item, others) =>
          match draft.addItem item with
          | .error refusal => .error refusal
          | .ok extended =>
              have := length_takeItem taken
              extended.addAll others
termination_by arguments => arguments.length
decreasing_by
  simp only [List.length_cons]
  omega

/-- How many frames are run when none are asked for. -/
def standardFrames : Nat := 60

/-- What was said, with what is understood where nothing was. -/
def finish (draft : Draft) : Except ArgumentError Options :=
  match draft.rom with
  | none => .error .missingRom
  | some rom =>
      .ok
        { rom := rom
          frames := draft.frames.getD standardFrames
          boot := draft.boot
          breakpoints := draft.breakpoints
          dump := draft.dump }

end Draft

/-- Read a command line, without the name of the program. -/
def parse (arguments : List String) : Except ArgumentError Options :=
  match Draft.empty.addAll arguments with
  | .error refusal => .error refusal
  | .ok draft => draft.finish

end Cli

end Dmg
