import Dmg.Proofs.Cpu.Branch
import Dmg.Proofs.Machine.Steps
import Dmg.Proofs.Safety.Checked

/-!
# Checked arithmetic of the processor

Addresses and results wrap, but carries do not: they are found in sums that are one
step wider than what they are carries of, or in differences with a sign.  These have
to fit the words that they are computed in, and so does the cost of an instruction.
-/

namespace Dmg

theorem Displacement.toNat_toWord_mod (byte : UInt8) :
    (toWord byte).toNat % 256 = byte.toNat := by
  have bound := byte.toNat_lt
  rw [toWord]
  split
  · exact Nat.mod_eq_of_lt bound
  · rw [UInt16.toNat_add]
    change (byte.toNat + 0xFF00) % 2 ^ 16 % 256 = byte.toNat
    omega

namespace Registers

/-! ## Carries -/

/-- Add a byte and a carry to A.  The half carry is found in a byte and the carry in
a word. -/
def add? (registers : Registers) (byte : UInt8) (carry : Bool) : Option Registers := do
  let lower <- Checked.add 8 (registers.a.toNat % 16) (byte.toNat % 16)
  let half <- Checked.add 8 lower carry.toNat
  let upper <- Checked.add 16 registers.a.toNat byte.toNat
  let full <- Checked.add 16 upper carry.toNat
  let result := UInt8.ofNat full
  some { registers with
    a := result
    f := Flag.pack (result == 0) false (15 < half) (255 < full) }

/-- The difference of A and a byte, less a borrow, and its flags.  Both borrows are
found in words with a sign. -/
def compare? (registers : Registers) (byte : UInt8) (borrow : Bool) :
    Option (UInt8 × UInt8) := do
  let lower <- Checked.signed 16 ((registers.a.toNat % 16 : Nat) - (byte.toNat % 16 : Nat))
  let half <- Checked.signed 16 (lower - borrow.toNat)
  let upper <- Checked.signed 16 (registers.a.toNat - byte.toNat)
  let full <- Checked.signed 16 (upper - borrow.toNat)
  let result := UInt8.ofInt full
  some (result, Flag.pack (result == 0) true (half < 0) (full < 0))

def combine? (registers : Registers) (operation : Arithmetic) (byte : UInt8) :
    Option Registers :=
  match operation with
  | .add => registers.add? byte false
  | .adc => registers.add? byte (registers.flag .carry)
  | .sub => do
      let compared <- registers.compare? byte false
      some { registers with a := compared.1, f := compared.2 }
  | .sbc => do
      let compared <- registers.compare? byte (registers.flag .carry)
      some { registers with a := compared.1, f := compared.2 }
  | .cp => do
      let compared <- registers.compare? byte false
      some { registers with f := compared.2 }
  | .and | .xor | .or => some (registers.combine operation byte)

/-- Add a word to HL.  The half carry is found in a word and the carry in a double
word. -/
def addHl? (registers : Registers) (word : UInt16) : Option Registers := do
  let hl := registers.hl
  let half <- Checked.add 16 (hl.toNat % 0x1000) (word.toNat % 0x1000)
  let full <- Checked.add 32 hl.toNat word.toNat
  some ((((registers.setFlag .subtract false).setFlag .halfCarry (0x0FFF < half)).setFlag .carry
    (0xFFFF < full)).setHl (hl + word))

/-- The flags of a stack offset, which are found in words. -/
def flagStackOffset? (registers : Registers) (byte : UInt8) : Option Registers := do
  let displacement := Displacement.toWord byte
  let half <- Checked.add 16 (registers.sp.toNat % 16) (displacement.toNat % 16)
  let full <- Checked.add 16 (registers.sp.toNat % 256) (displacement.toNat % 256)
  some { registers with f := Flag.pack false false (15 < half) (255 < full) }

theorem add?_eq (registers : Registers) (byte : UInt8) (carry : Bool) :
    registers.add? byte carry =
      some { registers with
        a := Arithmetic.sum registers.a byte carry
        f := Arithmetic.sumFlags registers.a byte carry } := by
  have first := registers.a.toNat_lt
  have second := byte.toNat_lt
  have third : carry.toNat <= 1 := carry.toNat_le
  have result : UInt8.ofNat (registers.a.toNat + byte.toNat + carry.toNat) =
      Arithmetic.sum registers.a byte carry := by
    rw [UInt8.ofNat_add, UInt8.ofNat_add, UInt8.ofNat_toNat, UInt8.ofNat_toNat]
    cases carry <;> rfl
  rw [add?]
  simp (disch := omega) only [Checked.add_eq, Option.bind_eq_bind, Option.bind_some, result]
  rfl

theorem compare?_eq (registers : Registers) (byte : UInt8) (borrow : Bool) :
    registers.compare? byte borrow =
      some (Arithmetic.difference registers.a byte borrow,
        Arithmetic.differenceFlags registers.a byte borrow) := by
  have first := registers.a.toNat_lt
  have second := byte.toNat_lt
  have third : borrow.toNat <= 1 := borrow.toNat_le
  have result : UInt8.ofInt ((registers.a.toNat : Int) - byte.toNat - borrow.toNat) =
      Arithmetic.difference registers.a byte borrow := by
    rw [Int.sub_eq_add_neg, Int.sub_eq_add_neg, UInt8.ofInt_add, UInt8.ofInt_add, UInt8.ofInt_neg,
      UInt8.ofInt_neg, Checked.ofInt_natCast, Checked.ofInt_natCast, UInt8.ofNat_toNat,
      UInt8.ofNat_toNat, ← UInt8.sub_eq_add_neg, ← UInt8.sub_eq_add_neg]
    cases borrow <;> rfl
  have half : ((registers.a.toNat % 16 : Nat) : Int) - (byte.toNat % 16 : Nat) - borrow.toNat < 0 ↔
      registers.a.toNat % 16 < byte.toNat % 16 + borrow.toNat := by
    omega
  have full : (registers.a.toNat : Int) - byte.toNat - borrow.toNat < 0 ↔
      registers.a.toNat < byte.toNat + borrow.toNat := by
    omega
  rw [compare?]
  simp (disch := omega) only [Checked.signed_eq, Option.bind_eq_bind, Option.bind_some, result,
    half, full]
  rfl

theorem combine?_eq (registers : Registers) (operation : Arithmetic) (byte : UInt8) :
    registers.combine? operation byte = some (registers.combine operation byte) := by
  cases operation with
  | add => exact registers.add?_eq byte false
  | adc => exact registers.add?_eq byte (registers.flag .carry)
  | sub | sbc | cp =>
      rw [combine?, compare?_eq]
      rfl
  | and | xor | or => rfl

theorem addHl?_eq (registers : Registers) (word : UInt16) :
    registers.addHl? word = some (registers.addHl word) := by
  have first := registers.hl.toNat_lt
  have second := word.toNat_lt
  rw [addHl?]
  simp (disch := omega) only [Checked.add_eq, Option.bind_eq_bind, Option.bind_some]
  rfl

theorem flagStackOffset?_eq (registers : Registers) (byte : UInt8) :
    registers.flagStackOffset? byte = some (registers.flagStackOffset byte) := by
  have low := Displacement.toNat_toWord_mod byte
  have lowest : (Displacement.toWord byte).toNat % 16 = byte.toNat % 16 := by
    omega
  rw [flagStackOffset?]
  simp (disch := omega) only [Checked.add_eq, Option.bind_eq_bind, Option.bind_some, low, lowest]
  rfl

end Registers

/-! ## Operations and steps -/

namespace Wired

variable {Memory : Type} [Bus Memory]

def execute? (wired : Wired Memory) (operation : Operation) : Option (Wired Memory) :=
  match operation with
  | .loadStackOffset => do
      let fetched := wired.fetchByte
      let flagged <- fetched.2.registers.flagStackOffset? fetched.1
      some (fetched.2.mapRegisters fun registers =>
        flagged.setHl (registers.stackOffset fetched.1))
  | .addStackOffset => do
      let fetched := wired.fetchByte
      let flagged <- fetched.2.registers.flagStackOffset? fetched.1
      some (fetched.2.mapRegisters fun registers =>
        { flagged with sp := registers.stackOffset fetched.1 })
  | .addPair source => do
      let added <- wired.registers.addHl? (wired.registers.pair source)
      some (wired.mapRegisters fun _ => added)
  | .arithmetic arithmetic source => do
      let operand := wired.readOperand source
      let combined <- operand.2.registers.combine? arithmetic operand.1
      some (operand.2.mapRegisters fun _ => combined)
  | .arithmeticByte arithmetic => do
      let fetched := wired.fetchByte
      let combined <- fetched.2.registers.combine? arithmetic fetched.1
      some (fetched.2.mapRegisters fun _ => combined)
  | operation => some (wired.execute operation)

/-- Execute a decoded operation as a whole instruction.  A branch that is taken adds
to what the table has. -/
def perform? (wired : Wired Memory) (operation : Operation) : Option (Wired Memory) := do
  let armed := wired.cpu.enablePending
  let unarmed := { wired with cpu := { wired.cpu with enablePending := false } }
  let executed <- unarmed.execute? operation
  let clocks <- Checked.add 32 operation.cycles
    (if operation.isTaken wired.registers then operation.surcharge else 0)
  some { executed with cpu := executed.cpu.settle armed operation ⟨clocks⟩ }

def step? (wired : Wired Memory) : Option (Except DecodeError Timing × Wired Memory) :=
  if wired.cpu.isIdle then some wired.idle.succeed
  else
    let address := wired.registers.pc
    let fetched := wired.fetchByte
    match Opcode.decode fetched.1 with
    | .operation operation => do
        let performed <- fetched.2.perform? operation
        some performed.succeed
    | .extended => do
        let selector := fetched.2.fetchByte
        let performed <- selector.2.perform? (.decodeExtended selector.1)
        some performed.succeed
    | .undefined => some (.error ⟨fetched.1, address⟩, fetched.2.jump address)

theorem execute?_eq (wired : Wired Memory) (operation : Operation) :
    wired.execute? operation = some (wired.execute operation) := by
  cases operation with
  | loadStackOffset | addStackOffset =>
      rw [execute?, Registers.flagStackOffset?_eq]
      rfl
  | addPair source =>
      rw [execute?, Registers.addHl?_eq]
      rfl
  | arithmetic arithmetic source | arithmeticByte arithmetic =>
      rw [execute?, Registers.combine?_eq]
      rfl
  | _ => rfl

theorem perform?_eq (wired : Wired Memory) (operation : Operation) :
    wired.perform? operation = some (wired.perform operation) := by
  have fits := operation.cost_le wired.registers
  rw [Operation.cost_eq] at fits
  rw [perform?, execute?_eq, Checked.add_eq (Nat.lt_of_le_of_lt fits (by decide)),
    ← Operation.cost_eq]
  rfl

/-- Nothing in a step of the processor is too large for the word that it is computed
in, whatever the processor works on. -/
theorem step?_eq (wired : Wired Memory) : wired.step? = some wired.step := by
  rw [step?, step]
  split
  · rfl
  · simp only [perform?_eq]
    cases Opcode.decode wired.fetchByte.1 <;> rfl

end Wired

end Dmg
