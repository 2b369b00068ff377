import Dmg.Proofs.Board.Storage
import Dmg.Proofs.Cpu.View
import Dmg.Proofs.Safety.Cartridge
import Dmg.Proofs.Safety.Timer
import Dmg.Proofs.Safety.Video

/-!
# The checked board

An address leads to a place in a memory by a difference or a remainder, and every such
place is there.  A write may also set off a transfer, which reads and writes a whole
page.

The processor works on its bus without any answer to wait for, so the board is given
to it in a guard: a read or a write that has no answer takes the board away for good.
-/

namespace Dmg

namespace Board

/-! ## Reads -/

def readImage? (board : Board) (address : UInt16) : Option UInt8 :=
  if board.bootActive && address.toNat < 0x100 then
    match board.bootImage with
    | none => board.cartridge.readImage? address
    | some image => image[address.toNat % 0x100]?
  else board.cartridge.readImage? address

def read? (board : Board) (address : UInt16) : Option UInt8 :=
  let place := address.toNat
  if place < 0x8000 then board.readImage? address
  else if place < 0xA000 then do
    let offset <- Checked.sub place 0x8000
    board.video.vram[offset % 0x2000]?
  else if place < 0xC000 then board.cartridge.readMemory? address
  else if place < 0xFE00 then board.workMemory[place % 0x2000]?
  else if place < 0xFEA0 then do
    let offset <- Checked.sub place 0xFE00
    board.video.oam[offset]?
  else if place < 0xFF80 then some (board.readLocation (.ofAddress address))
  else if place < 0xFFFF then do
    let offset <- Checked.sub place 0xFF80
    board.highMemory[offset]?
  else some board.interrupts.permissions

theorem readImage?_eq {board : Board} (whole : board.cartridge.Whole) {address : UInt16}
    (below : address.toNat < 0x8000) :
    board.readImage? address = some (board.readImage address) := by
  have page : (Word.high address == 0) = decide (address.toNat < 0x100) := by
    rw [Bool.eq_iff_iff, beq_iff_eq, decide_eq_true_iff, ← UInt8.toNat_inj, Word.toNat_high]
    change address.toNat / 256 = 0 ↔ _
    omega
  rw [readImage?, readImage, page]
  split
  · cases board.bootImage with
    | none => exact Cartridge.readImage?_eq whole below
    | some image =>
        have inside : address.toNat % 0x100 < 256 := Nat.mod_lt _ (by decide)
        have low : address.toNat % 0x100 = (Word.low address).toNat :=
          (Word.toNat_low address).symm
        dsimp only
        rw [getElem?_pos image _ inside]
        simp only [low]
        rfl
  · exact Cartridge.readImage?_eq whole below

theorem read?_eq {board : Board} (whole : board.cartridge.Whole) (address : UInt16) :
    board.read? address = some (board.read address) := by
  have led := Location.leads_ofAddress address
  rw [read?, read]
  generalize Location.ofAddress address = location at *
  cases led with
  | image below =>
      rw [if_pos below]
      exact readImage?_eq whole below
  | videoMemory offset place =>
      have inside := offset.isLt
      simp (disch := omega) only [if_neg, if_pos]
      rw [Checked.bind_sub_eq place, Nat.mod_eq_of_lt inside]
      exact getElem?_pos board.video.vram _ inside
  | cartridgeMemory above below =>
      simp (disch := omega) only [if_neg, if_pos]
      exact Cartridge.readMemory?_eq whole address
  | workMemory offset place | echo offset place below =>
      have inside := offset.isLt
      have same : address.toNat % 0x2000 = offset.val := by omega
      simp (disch := omega) only [if_neg, if_pos, same]
      exact getElem?_pos board.workMemory _ inside
  | spriteMemory offset place =>
      have inside := offset.isLt
      simp (disch := omega) only [if_neg, if_pos]
      rw [Checked.bind_sub_eq place]
      exact getElem?_pos board.video.oam _ inside
  | unused above below => simp (disch := omega) only [if_neg, if_pos]
  | lastPage low place below => simp (disch := omega) only [if_neg, if_pos]
  | highMemory offset place =>
      have inside := offset.isLt
      simp (disch := omega) only [if_neg, if_pos]
      rw [Checked.bind_sub_eq place]
      exact getElem?_pos board.highMemory _ inside
  | interruptPermissions last =>
      simp (disch := omega) only [if_neg]
      rfl

/-! ## Writes -/

def transferByte? (page : UInt8) (board : Board) (offset : SpriteOffset) : Option Board := do
  let byte <- board.read? (Word.ofBytes page (UInt8.ofNat offset.val))
  let video <- board.video.writeOam? offset.val byte
  some { board with video := video }

def transfer? (board : Board) (page : UInt8) : Option Board :=
  (List.finRange 160).foldlM (transferByte? page) { board with transferPage := page }

def writeDevice? (board : Board) (location : Location) (byte : UInt8) : Option Board :=
  match location with
  | .transfer => board.transfer? byte
  | .video register => do
      let written <- board.video.writeRegister? register byte
      some ({ board with video := written.1 }.request written.2)
  | location => some (board.writeLocation location byte)

def write? (board : Board) (address : UInt16) (byte : UInt8) : Option Board :=
  let place := address.toNat
  if place < 0x8000 then do
    let cartridge <- board.cartridge.writeImage? address byte
    some { board with cartridge := cartridge }
  else if place < 0xA000 then do
    let offset <- Checked.sub place 0x8000
    let video <- board.video.writeVram? offset byte
    some { board with video := video }
  else if place < 0xC000 then do
    let cartridge <- board.cartridge.writeMemory? address byte
    some { board with cartridge := cartridge }
  else if place < 0xFE00 then do
    let workMemory <- Checked.store board.workMemory (place % 0x2000) byte
    some { board with workMemory := workMemory }
  else if place < 0xFEA0 then do
    let offset <- Checked.sub place 0xFE00
    let video <- board.video.writeOam? offset byte
    some { board with video := video }
  else if place < 0xFF80 then board.writeDevice? (.ofAddress address) byte
  else if place < 0xFFFF then do
    let offset <- Checked.sub place 0xFF80
    let highMemory <- Checked.store board.highMemory offset byte
    some { board with highMemory := highMemory }
  else some { board with interrupts := { board.interrupts with permissions := byte } }

/-- A transfer reads what it has already copied, and the cartridge stays as it
is. -/
theorem transfer?_eq {board : Board} (whole : board.cartridge.Whole) (page : UInt8) :
    board.transfer? page = some (board.transfer page) := by
  have copied (offset : SpriteOffset) (board : Board) (whole : board.cartridge.Whole) :
      transferByte? page board offset = some (transferByte page board offset) := by
    rw [transferByte?, read?_eq whole, Option.bind_eq_bind, Option.bind_some, Video.writeOam?_eq]
    rfl
  exact Checked.foldlM_eq_some id (fun board => board.cartridge.Whole)
    (fun offset _ board whole => ⟨copied offset board whole, whole⟩) whole

theorem writeDevice?_eq {board : Board} (whole : board.cartridge.Whole) (location : Location)
    (byte : UInt8) :
    board.writeDevice? location byte = some (board.writeLocation location byte) := by
  cases location with
  | transfer => exact transfer?_eq whole byte
  | video register =>
      rw [writeDevice?, Video.writeRegister?_eq]
      rfl
  | _ => rfl

theorem write?_eq {board : Board} (whole : board.cartridge.Whole) (address : UInt16)
    (byte : UInt8) : board.write? address byte = some (board.write address byte) := by
  have led := Location.leads_ofAddress address
  rw [write?, write]
  generalize Location.ofAddress address = location at *
  cases led with
  | image below =>
      rw [if_pos below, Cartridge.writeImage?_eq whole]
      rfl
  | videoMemory offset place =>
      have inside := offset.isLt
      simp (disch := omega) only [if_neg, if_pos]
      rw [Checked.bind_sub_eq place, Video.writeVram?_eq]
      rfl
  | cartridgeMemory above below =>
      simp (disch := omega) only [if_neg, if_pos, Cartridge.writeMemory?_eq whole,
        Option.bind_eq_bind, Option.bind_some]
      rfl
  | workMemory offset place | echo offset place below =>
      have inside := offset.isLt
      have same : address.toNat % 0x2000 = offset.val := by omega
      simp (disch := omega) only [if_neg, if_pos, same]
      rw [Checked.store_eq_set inside]
      rfl
  | spriteMemory offset place =>
      have inside := offset.isLt
      simp (disch := omega) only [if_neg, if_pos]
      rw [Checked.bind_sub_eq place, Video.writeOam?_eq]
      rfl
  | unused above below => simp (disch := omega) only [if_neg, if_pos, writeDevice?_eq whole]
  | lastPage low place below => simp (disch := omega) only [if_neg, if_pos, writeDevice?_eq whole]
  | highMemory offset place =>
      have inside := offset.isLt
      simp (disch := omega) only [if_neg, if_pos]
      rw [Checked.bind_sub_eq place, Checked.store_eq_set inside]
      rfl
  | interruptPermissions last =>
      simp (disch := omega) only [if_neg]
      rfl

/-! ## Time and power -/

def advance? (board : Board) (timing : Timing) : Option Board := do
  let shown <- board.video.step? timing.clocks
  let counted <- board.timer.step? timing.machine
  some ({ board with video := shown.1, timer := counted.1 }.request (shown.2 ||| counted.2))

def start? (shades : Shades) (cartridge : Cartridge) (bootImage : Option BootImage) :
    Option Board := do
  let video <- Video.initial? shades
  some { start shades cartridge bootImage with video := video }

def reset? (board : Board) : Option Board := do
  let video <- board.video.reset?
  some { board.reset with video := video }

theorem advance?_eq {board : Board} (sound : board.Sound) {timing : Timing}
    (few : timing.clocks < 2 ^ 31) : board.advance? timing = some (board.advance timing) := by
  have fewer : timing.machine < 2 ^ 31 := Nat.lt_of_le_of_lt (Nat.div_le_self _ _) few
  rw [advance?, Video.step?_eq sound.video.settled few, Timer.step?_eq (sound.timer.hasRoom fewer)]
  rfl

theorem start?_eq (shades : Shades) (cartridge : Cartridge) (bootImage : Option BootImage) :
    start? shades cartridge bootImage = some (start shades cartridge bootImage) := by
  rw [start?, Video.initial?_eq]
  rfl

theorem reset?_eq (board : Board) : board.reset? = some board.reset := by
  rw [reset?, Video.reset?_eq]
  rfl

/-! ## The guard -/

/-- A board in a guard.  Where it has been taken away, reads find what they find
where nothing answers. -/
instance : Bus (Option Board) where
  read guarded address :=
    match guarded.bind fun board => board.read? address with
    | some byte => (byte, guarded)
    | none => (Cartridge.openBus, none)
  write guarded address byte := guarded.bind fun board => board.write? address byte

/-- A board that boards can come to is seen in a guard that never takes it away. -/
def guard : BusView reachedInvariant.Kept (Option Board) where
  see kept := some kept.val
  read_see kept address := by
    have found := read?_eq kept.property.sound.cartridge address
    change (match kept.val.read? address with | some byte => _ | none => _) = _
    rw [found]
    rfl
  write_see kept address byte := write?_eq kept.property.sound.cartridge address byte

end Board

end Dmg
