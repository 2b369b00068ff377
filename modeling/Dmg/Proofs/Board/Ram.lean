import Dmg.Memory.Flat
import Dmg.Proofs.Board.Storage
import Dmg.Proofs.Cpu.Agreement

/-!
# Programs that keep to memory

Behind most addresses of the board there is something that a memory does not do.  Behind
those of work memory and of high memory there is not: they keep what is written to them,
no two of them share a byte, and nothing else takes notice.

So a program that keeps to these addresses runs as it would on flat memory, and the rest
of the board stays as it is.
-/

namespace Dmg

/-- The addresses of work memory, without its echo, and of high memory. -/
def InRam (address : UInt16) : Prop :=
  (0xC000 <= address.toNat ∧ address.toNat < 0xE000) ∨
    (0xFF80 <= address.toNat ∧ address.toNat < 0xFFFF)

instance (address : UInt16) : Decidable (InRam address) :=
  inferInstanceAs (Decidable (_ ∨ _))

namespace Location

theorem isMemory_of_inRam {address : UInt16} (inside : InRam address) :
    (ofAddress address).isMemory = true := by
  have led := leads_ofAddress address
  generalize ofAddress address = place at led
  rw [InRam] at inside
  cases led with
  | workMemory | echo | highMemory | videoMemory | spriteMemory => rfl
  | lastPage low place below => omega
  | _ => omega

/-- No two addresses of memory lead to the same byte. -/
theorem eq_of_sameByte {first second : UInt16} (firstInside : InRam first)
    (secondInside : InRam second) (same : SameByte first second) : second = first := by
  rcases same with equal | ⟨firstBelow, secondBelow, echo⟩
  · exact equal
  · rw [InRam] at firstInside secondInside
    omega

end Location

namespace Board

/-! ## What stays as it is -/

/-- Two boards differ in what is in their work memory and high memory, if at all. -/
structure SameDevices (first second : Board) : Prop where
  cartridge : second.cartridge = first.cartridge
  bootImage : second.bootImage = first.bootImage
  bootActive : second.bootActive = first.bootActive
  video : second.video = first.video
  timer : second.timer = first.timer
  joypad : second.joypad = first.joypad
  serial : second.serial = first.serial
  interrupts : second.interrupts = first.interrupts
  transferPage : second.transferPage = first.transferPage

theorem SameDevices.refl (board : Board) : SameDevices board board :=
  ⟨rfl, rfl, rfl, rfl, rfl, rfl, rfl, rfl, rfl⟩

theorem SameDevices.trans {first second third : Board} (early : SameDevices first second)
    (late : SameDevices second third) : SameDevices first third :=
  ⟨late.cartridge.trans early.cartridge, late.bootImage.trans early.bootImage,
    late.bootActive.trans early.bootActive, late.video.trans early.video,
    late.timer.trans early.timer, late.joypad.trans early.joypad,
    late.serial.trans early.serial, late.interrupts.trans early.interrupts,
    late.transferPage.trans early.transferPage⟩

theorem sameDevices_write (board : Board) {address : UInt16} (inside : InRam address)
    (byte : UInt8) : SameDevices board (board.write address byte) := by
  have led := Location.leads_ofAddress address
  rw [write]
  generalize Location.ofAddress address = place at led
  rw [InRam] at inside
  cases led with
  | workMemory | highMemory => exact ⟨rfl, rfl, rfl, rfl, rfl, rfl, rfl, rfl, rfl⟩
  | _ => omega

/-! ## What memory keeps -/

theorem read_eq_of_inRam {first second : Board} (work : second.workMemory = first.workMemory)
    (high : second.highMemory = first.highMemory) {address : UInt16} (inside : InRam address) :
    second.read address = first.read address := by
  have led := Location.leads_ofAddress address
  rw [read, read]
  generalize Location.ofAddress address = place at led
  rw [InRam] at inside
  cases led with
  | workMemory offset => exact congrArg (Vector.get · offset) work
  | highMemory offset => exact congrArg (Vector.get · offset) high
  | _ => omega

/-- No register of a device is wired to memory. -/
theorem memories_writeLocation (board : Board) {place : Location}
    (device : place.isMemory = false) (byte : UInt8) :
    (board.writeLocation place byte).workMemory = board.workMemory ∧
      (board.writeLocation place byte).highMemory = board.highMemory := by
  cases place with
  | videoMemory | workMemory | spriteMemory | highMemory => cases device
  | transfer =>
      rcases board.exists_transfer_eq byte with ⟨oam, same⟩
      rw [writeLocation, same]
      exact ⟨rfl, rfl⟩
  | _ => exact ⟨rfl, rfl⟩

/-- A byte of memory stays until something is written to its own address or to its echo. -/
theorem read_write_of_inRam (board : Board) {address : UInt16} (inside : InRam address)
    {written : UInt16} (apart : ¬ Location.SameByte written address) (byte : UInt8) :
    (board.write written byte).read address = board.read address := by
  cases memory : (Location.ofAddress written).isMemory with
  | true => rw [board.read_write_of_isMemory memory, if_neg apart]
  | false =>
      rcases board.memories_writeLocation memory byte with ⟨work, high⟩
      exact read_eq_of_inRam work high inside

theorem read_write_self_of_inRam (board : Board) {address : UInt16} (inside : InRam address)
    (byte : UInt8) : (board.write address byte).read address = byte := by
  have same : Location.SameByte address address := Or.inl rfl
  rw [board.read_write_of_isMemory (Location.isMemory_of_inRam inside), if_pos same]

/-! ## Flat memory -/

/-- A board and a flat memory have the same bytes at the addresses of memory. -/
def SameRam (board : Board) (flat : FlatMemory) : Prop :=
  ∀ address, InRam address -> board.read address = flat.get address

theorem SameRam.write {board : Board} {flat : FlatMemory} (same : board.SameRam flat)
    {written : UInt16} (inside : InRam written) (byte : UInt8) :
    (board.write written byte).SameRam (flat.set written byte) := by
  intro address readInside
  rw [board.read_write_of_isMemory (Location.isMemory_of_inRam inside), FlatMemory.get_set]
  by_cases one : written = address
  · have shared : Location.SameByte written address := Or.inl one.symm
    rw [if_pos one, if_pos shared]
  · have apart : ¬ Location.SameByte written address := fun shared =>
      one (Location.eq_of_sameByte inside readInside shared).symm
    rw [if_neg one, if_neg apart, same address readInside]

def setAll (board : Board) (address : UInt16) : List UInt8 -> Board
  | [] => board
  | byte :: rest => (board.write address byte).setAll (address + 1) rest

theorem SameRam.setAll {board : Board} {flat : FlatMemory} (same : board.SameRam flat)
    {address : UInt16} {bytes : List UInt8}
    (inside : ∀ index, index < bytes.length -> InRam (address + UInt16.ofNat index)) :
    (board.setAll address bytes).SameRam (flat.setAll address bytes) := by
  induction bytes generalizing board flat address with
  | nil => exact same
  | cons byte bytes inductionHypothesis =>
      have first : InRam address := by
        rw [← UInt16.add_zero address]
        exact inside 0 (Nat.succ_pos _)
      refine inductionHypothesis (same.write first byte) fun index less => ?_
      have later := inside (index + 1) (Nat.succ_lt_succ less)
      rw [UInt16.ofNat_add, UInt16.add_comm (UInt16.ofNat index), ← UInt16.add_assoc] at later
      exact later

/-- When power comes on, memory is as empty as flat memory. -/
theorem sameRam_empty (shades : Shades) : (empty shades).SameRam (.filled 0) := by
  intro address inside
  have led := Location.leads_ofAddress address
  rw [FlatMemory.get_filled, read]
  generalize Location.ofAddress address = place at led
  rw [InRam] at inside
  cases led with
  | workMemory offset place => exact Vector.getElem_replicate offset.isLt
  | highMemory offset place => exact Vector.getElem_replicate offset.isLt
  | _ => omega

/-- A board goes together with a flat memory while its memory has the same bytes and
nothing else of it has changed. -/
def ramAgreement (start : Board) : BusAgreement Board FlatMemory where
  inside := InRam
  agree board flat := board.SameRam flat ∧ start.SameDevices board
  read_agree _ _ address agree inside := ⟨agree.1 address inside, agree⟩
  write_agree board _ _ byte agree inside :=
    ⟨agree.1.write inside byte, agree.2.trans (board.sameDevices_write inside byte)⟩

end Board

namespace Wired

/-- Whether a number of steps fetch, read and write nowhere but in memory. -/
def KeepsToRam {Memory : Type} [Bus Memory] (wired : Wired Memory) (count : Nat) : Prop :=
  ∀ access ∈ wired.accessesOver count, InRam access.address

instance {Memory : Type} [Bus Memory] (wired : Wired Memory) (count : Nat) :
    Decidable (wired.KeepsToRam count) :=
  inferInstanceAs (Decidable (∀ access ∈ wired.accessesOver count, InRam access.address))

/-- As long as a program keeps to memory, it makes no difference to the processor whether
it runs on a board or on a flat memory with the same bytes: every step gives the same
answer, succeeds or fails.  On the board nothing but memory changes. -/
theorem ram_is_flat {cpu : Cpu} {board : Board} {flat : FlatMemory} (same : board.SameRam flat)
    {count : Nat}
    (keeps : KeepsToRam ⟨cpu, board⟩ count ∨ KeepsToRam ⟨cpu, flat⟩ count) :
    (runSteps ⟨cpu, board⟩ count).1 = (runSteps ⟨cpu, flat⟩ count).1 ∧
      (runSteps ⟨cpu, board⟩ count).2.cpu = (runSteps ⟨cpu, flat⟩ count).2.cpu ∧
      accessesOver ⟨cpu, board⟩ count = accessesOver ⟨cpu, flat⟩ count ∧
      (runSteps ⟨cpu, board⟩ count).2.memory.SameRam (runSteps ⟨cpu, flat⟩ count).2.memory ∧
      board.SameDevices (runSteps ⟨cpu, board⟩ count).2.memory := by
  have agree : board.ramAgreement.agree board flat := ⟨same, .refl board⟩
  have ran : board.ramAgreement.SameRun ⟨cpu, board⟩ ⟨cpu, flat⟩ count := by
    rcases keeps with onBoard | onFlat
    · exact BusAgreement.sameRun_of_within agree onBoard
    · have back : board.ramAgreement.symm.agree flat board := agree
      exact (BusAgreement.sameRun_of_within back onFlat).symm
  exact ⟨ran.answers, ran.cpu, ran.accesses, ran.agree.1, ran.agree.2⟩

/-- A program that stores a byte, moves an address over the stack, and ends at an opcode
without a meaning. -/
def memoryProgram : List UInt8 :=
  [0x21, 0x10, 0xC0, 0x36, 0x5A, 0xE5, 0xC1, 0xD3]

/-- A processor at the beginning of work memory. -/
def memoryCpu : Cpu :=
  { Cpu.afterBoot with registers := { Registers.afterBoot with pc := 0xC000 } }

/-- What the program does on flat memory is known from what it does on a board. -/
theorem memoryProgram_on_flat :
    ((Board.empty .green).setAll 0xC000 memoryProgram).SameRam
        ((FlatMemory.filled 0).setAll 0xC000 memoryProgram) ∧
      KeepsToRam ⟨memoryCpu, (Board.empty .green).setAll 0xC000 memoryProgram⟩ 5 ∧
      (runSteps ⟨memoryCpu, (FlatMemory.filled 0).setAll 0xC000 memoryProgram⟩ 5).1 =
        [.ok ⟨12⟩, .ok ⟨12⟩, .ok ⟨16⟩, .ok ⟨12⟩, .error ⟨0xD3, 0xC007⟩] ∧
      (runSteps ⟨memoryCpu, (FlatMemory.filled 0).setAll 0xC000 memoryProgram⟩
        5).2.memory.get 0xC010 = 0x5A := by
  have inside : ∀ index, index < memoryProgram.length -> InRam (0xC000 + UInt16.ofNat index) := by
    decide
  have same := (Board.sameRam_empty .green).setAll inside
  have keeps : KeepsToRam ⟨memoryCpu, (Board.empty .green).setAll 0xC000 memoryProgram⟩ 5 := by
    decide +kernel
  rcases ram_is_flat same (Or.inl keeps) with ⟨answers, -, -, agree, -⟩
  refine ⟨same, keeps, ?_, ?_⟩
  · rw [← answers]
    decide +kernel
  · rw [← agree 0xC010 (by decide)]
    decide +kernel

end Wired

end Dmg
