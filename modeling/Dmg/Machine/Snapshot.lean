import Dmg.Machine.Basic

/-!
# Snapshots

The registers of the machine as three lines of text: the processor's registers,
its flags and interrupts, and the registers of the video unit.
-/

namespace Dmg

namespace Snapshot

def entry (name value : String) : String :=
  name ++ "=" ++ value

/-- Two byte registers as a pair. -/
def pair (name : String) (high low : UInt8) : String :=
  entry name (Text.hexByte high ++ Text.hexByte low)

def switch (name : String) (isOn : Bool) : String :=
  entry name (if isOn then "1" else "0")

/-- A flag by its letter, or a dash. -/
def flagLetter (registers : Registers) (flag : Flag) (letter : Char) : Char :=
  if registers.flag flag then letter else '-'

def flagLetters (registers : Registers) : String :=
  String.ofList [flagLetter registers .zero 'Z', flagLetter registers .subtract 'N',
    flagLetter registers .halfCarry 'H', flagLetter registers .carry 'C']

def registerLine (registers : Registers) : String :=
  String.intercalate " "
    [pair "AF" registers.a registers.f, pair "BC" registers.b registers.c,
      pair "DE" registers.d registers.e, pair "HL" registers.h registers.l,
      entry "SP" (Text.hexWord registers.sp), entry "PC" (Text.hexWord registers.pc)]

def interruptLine (cpu : Cpu) (interrupts : InterruptControl) : String :=
  String.intercalate " "
    [entry "flags" (flagLetters cpu.registers), switch "IME" cpu.ime, switch "HALT" cpu.halted,
      switch "STOP" cpu.stopped, entry "IE" (Text.hexByte interrupts.permissions),
      entry "IF" (Text.hexByte interrupts.readRequests)]

/-- The video registers in the order in which they are shown. -/
def videoEntries : List (String × VideoRegister) :=
  [("LCDC", .lcdc), ("STAT", .stat), ("LY", .ly), ("LYC", .lyc), ("SCY", .scy), ("SCX", .scx),
    ("WY", .wy), ("WX", .wx), ("BGP", .bgp), ("OBP0", .obp0), ("OBP1", .obp1)]

/-- The registers of the video unit, and its mode. -/
def videoLine (video : Video) : String :=
  String.intercalate " "
    (videoEntries.map (fun (name, register) =>
        entry name (Text.hexByte (video.readRegister register))) ++
      [entry "mode" video.mode.name])

end Snapshot

namespace Machine

def snapshot (machine : Machine) : String :=
  String.intercalate "\n"
    [Snapshot.registerLine machine.cpu.registers,
      Snapshot.interruptLine machine.cpu machine.board.interrupts,
      Snapshot.videoLine machine.board.video]

end Machine

end Dmg
