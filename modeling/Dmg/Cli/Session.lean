import Dmg.Cli.Arguments
import Dmg.Machine.Run
import Dmg.Machine.Snapshot
import Dmg.Text.Utf8

/-!
# A session

A session puts a cartridge into a machine, runs some frames and reports what
came of it.  Files are read through a function, so that a session is a function
of what the files hold.  What a session has said before it fails stays said.
-/

namespace Dmg

namespace Cli

inductive FileError where
  | missing
  | other (text : String)
  deriving DecidableEq, Repr

namespace FileError

def message : FileError -> String
  | missing => "No such file or directory (os error 2)"
  | other text => text

end FileError

inductive SessionError where
  | romUnreadable (path : String) (cause : FileError)
  | romRefused (cause : ImageError)
  | bootUnreadable (path : String) (cause : FileError)
  | bootRefused (cause : ImageError)
  | dumpUnwritable (path : String) (cause : FileError)
  deriving DecidableEq, Repr

namespace SessionError

/-- The wording of each error, with its causes. -/
def message : SessionError -> String
  | romUnreadable path cause => "failed to read ROM '" ++ path ++ "': " ++ cause.message
  | romRefused cause => "cartridge rejected: " ++ cause.message
  | bootUnreadable path cause =>
      "failed to read boot image '" ++ path ++ "': " ++ cause.message
  | bootRefused cause => cause.message
  | dumpUnwritable path cause =>
      "failed to write framebuffer to '" ++ path ++ "': " ++ cause.message

end SessionError

/-- What a session has said, and what it has warned of. -/
@[ext] structure Transcript where
  output : String
  warnings : String
  deriving DecidableEq, Repr

namespace Transcript

def empty : Transcript := ⟨"", ""⟩

def say (transcript : Transcript) (line : String) : Transcript :=
  { transcript with output := transcript.output ++ line ++ "\n" }

def warn (transcript : Transcript) (line : String) : Transcript :=
  { transcript with warnings := transcript.warnings ++ line ++ "\n" }

end Transcript

/-- A file's bytes, or why there are none. -/
abbrev Files := String -> Except FileError ByteArray

namespace Session

def infoLine (info : CartridgeInfo) : String :=
  info.title ++ " (" ++ info.kind.name ++ ", " ++ toString (info.imageSize / 1024) ++ " KiB)"

def insertRom (files : Files) (path : String) :
    Except SessionError (CartridgeInfo × Machine) :=
  match files path with
  | .error cause => .error (.romUnreadable path cause)
  | .ok image =>
      match (Machine.new .standard).load image with
      | .error cause => .error (.romRefused cause)
      | .ok loaded => .ok loaded

/-- Put the start-up image into a machine, if one is asked for. -/
def insertBoot (files : Files) (machine : Machine) :
    Option String -> Except SessionError Machine
  | none => .ok machine
  | some path =>
      match files path with
      | .error cause => .error (.bootUnreadable path cause)
      | .ok image =>
          match machine.loadBoot image with
          | .error cause => .error (.bootRefused cause)
          | .ok started => .ok started

def addBreakpoints (machine : Machine) (addresses : List UInt16) : Machine :=
  addresses.foldl (fun machine address => (machine.addBreakpoint address).2) machine

/-- Run the frames that are left, of which the first has the given number.  Only
a frame that is completed is followed by another one. -/
def runFrames : Nat -> Nat -> Machine -> Transcript -> Machine × Transcript
  | 0, _, machine, transcript => (machine, transcript)
  | left + 1, number, machine, transcript =>
      match machine.runFrame with
      | (.ok .completed, machine) => runFrames left (number + 1) machine transcript
      | (.ok (.breakpoint address), machine) =>
          (machine, transcript.say ("break at " ++ Text.hexWord address ++ ": " ++
            (machine.disassemble address).text))
      | (.ok .stopped, machine) | (.ok .frozen, machine) => (machine, transcript)
      | (.error failure, machine) =>
          (machine, transcript.warn (failure.message ++ " (frame " ++ toString number ++ ")"))

/-- Say what was sent over the serial link, if anything was. -/
def reportSerial (machine : Machine) (transcript : Transcript) : Transcript :=
  if machine.serialOutput.isEmpty then transcript
  else transcript.say ("serial: " ++
    String.ofList (Text.decodeLossy machine.serialOutput.toList))

/-- Run a machine that is ready, and report. -/
def play (options : Options) (machine : Machine) (transcript : Transcript) :
    Machine × Transcript :=
  let played := runFrames options.frames 0 (addBreakpoints machine options.breakpoints) transcript
  (played.1, (reportSerial played.1 played.2).say played.1.snapshot)

/-- Carry out what a command line asks for, up to the writing of the picture
that the machine shows in the end. -/
def run (files : Files) (options : Options) : Except SessionError Frame × Transcript :=
  match insertRom files options.rom with
  | .error failure => (.error failure, .empty)
  | .ok (info, machine) =>
      let transcript := Transcript.empty.say (infoLine info)
      match insertBoot files machine options.boot with
      | .error failure => (.error failure, transcript)
      | .ok started =>
          let played := play options started transcript
          (.ok played.1.board.video.front, played.2)

end Session

end Cli

end Dmg
