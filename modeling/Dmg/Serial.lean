/-!
# The serial link

Nothing is connected to the link and no transfer takes time.  Starting a
transfer with the machine's own clock sends the data byte to whoever listens,
and the bytes sent are kept in order.
-/

namespace Dmg

inductive SerialRegister where
  | data
  | control
  deriving DecidableEq, Repr

@[ext] structure Serial where
  data : UInt8
  control : UInt8
  /-- The bytes sent, the first one first. -/
  sent : Array UInt8
  deriving DecidableEq, Repr

namespace Serial

/-- Nothing sent and nothing to send. -/
def initial : Serial := ⟨0, 0, #[]⟩

instance : Inhabited Serial := ⟨initial⟩

/-- Clear the registers and forget what was sent. -/
def reset (serial : Serial) : Serial :=
  { serial with data := 0, control := 0, sent := #[] }

theorem reset_eq (serial : Serial) : serial.reset = initial :=
  rfl

/-- The control byte that starts a transfer: start, and the machine's own clock,
and nothing besides. -/
def startTransfer : UInt8 := 0x81

/-- A register as it is read; the bits that control nothing are raised. -/
def read (serial : Serial) : SerialRegister -> UInt8
  | .data => serial.data
  | .control => 0x7E ||| serial.control

def write (serial : Serial) (register : SerialRegister) (byte : UInt8) : Serial :=
  match register with
  | .data => { serial with data := byte }
  | .control =>
      { serial with
        control := byte &&& startTransfer
        sent := if byte = startTransfer then serial.sent.push serial.data else serial.sent }

end Serial

end Dmg
