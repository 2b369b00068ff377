import Dmg.Word

/-!
# Interrupts

Five sources can ask for the processor's attention.  A request is a bit in one
register, the permission for it the same bit in another.  Four of the sources
have an address at which their handler begins; a request of the serial link
wakes the processor and is not handled.
-/

namespace Dmg

/-- What can ask for the processor's attention. -/
inductive Interrupt where
  | vblank
  | lcdStat
  | timer
  | serial
  | joypad
  deriving DecidableEq, Repr

namespace Interrupt

/-- The bit of a source in the request and permission registers. -/
@[inline] def mask : Interrupt -> UInt8
  | vblank => 0x01
  | lcdStat => 0x02
  | timer => 0x04
  | serial => 0x08
  | joypad => 0x10

/-- The bits of all sources. -/
def allMask : UInt8 := 0x1F

/-- The address of a source's handler, if it has one. -/
def vector? : Interrupt -> Option UInt16
  | vblank => some 0x40
  | lcdStat => some 0x48
  | timer => some 0x50
  | serial => none
  | joypad => some 0x60

/-- The sources in the order in which they are handled. -/
def byPriority : List Interrupt :=
  [vblank, lcdStat, timer, serial, joypad]

/-- The source that is handled first among those whose bits are given, and the
address of its handler. -/
def first? (pending : UInt8) : Option (Interrupt × UInt16) :=
  byPriority.findSome? fun source =>
    if pending &&& source.mask = 0 then none
    else source.vector?.map fun vector => (source, vector)

def requestAddress : UInt16 := 0xFF0F

/-- The address of the permission register. -/
def permissionAddress : UInt16 := 0xFFFF

end Interrupt

@[ext] structure InterruptControl where
  /-- The bits of the sources that have asked. -/
  requests : UInt8
  /-- A plain byte: bits that belong to no source are kept as well. -/
  permissions : UInt8
  deriving DecidableEq, Repr

namespace InterruptControl

/-- Nothing asked for and nothing permitted. -/
def initial : InterruptControl := ⟨0, 0⟩

instance : Inhabited InterruptControl := ⟨initial⟩

/-- Add requests to those that wait. -/
@[inline] def request (control : InterruptControl) (requests : UInt8) : InterruptControl :=
  { control with requests := control.requests ||| requests }

/-- The request register as it is read: the bits without a source are raised. -/
@[inline] def readRequests (control : InterruptControl) : UInt8 :=
  0xE0 ||| control.requests

/-- Store the request register; the bits without a source are dropped. -/
@[inline] def writeRequests (control : InterruptControl) (byte : UInt8) : InterruptControl :=
  { control with requests := byte &&& Interrupt.allMask }

end InterruptControl

end Dmg
