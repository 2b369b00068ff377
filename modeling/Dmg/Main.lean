import Dmg.Cli.Session

/-!
# The program

Reads the command line and the files that it names, prints the report of the
session and writes the picture.
-/

namespace Dmg

namespace Cli

/-- The cause that an operating system gives. -/
def fileErrorOf (failure : IO.Error) : FileError :=
  match failure with
  | .noFileOrDirectory .. => .missing
  | _ => .other (toString failure)

/-- The bytes of a file, or why there are none. -/
def readFile (path : String) : IO (Except FileError ByteArray) := do
  try
    return .ok (← IO.FS.readBinFile path)
  catch failure =>
    return .error (fileErrorOf failure)

def writeFrame (path : String) (frame : Frame) : IO (Except SessionError Unit) := do
  try
    IO.FS.writeBinFile path frame.bytes
    return .ok ()
  catch failure =>
    return .error (.dumpUnwritable path (fileErrorOf failure))

/-- Read the files that a session may ask for. -/
def readFiles (options : Options) : IO Files := do
  let rom ← readFile options.rom
  let boot ← match options.boot with
    | some path => readFile path
    | none => pure (.error .missing)
  return fun path => if path = options.rom then rom else boot

def fail (failure : SessionError) : IO UInt32 := do
  IO.eprintln ("error: " ++ failure.message)
  return 1

def runProgram (arguments : List String) : IO UInt32 := do
  match parse arguments with
  | .error refusal =>
      IO.eprintln refusal.message
      return 2
  | .ok options =>
      let (result, transcript) := Session.run (← readFiles options) options
      IO.print transcript.output
      IO.eprint transcript.warnings
      match result, options.dump with
      | .error failure, _ => fail failure
      | .ok _, none => return 0
      | .ok frame, some path =>
          match ← writeFrame path frame with
          | .error failure => fail failure
          | .ok () => return 0

end Cli

end Dmg

def main (arguments : List String) : IO UInt32 :=
  Dmg.Cli.runProgram arguments
