import Dmg.Proofs.Board.Reached

/-!
# Reading what was written

Addresses are of several kinds.  Some keep a byte for the program: what is written
there is read there again, and the two addresses that share a byte of work memory
both show it.  Others take no byte at all.  In either case nothing changes that is
read elsewhere.

The map of the addresses is taken apart once, into one case for each range.  From
there on the proofs are about places and not about numbers.
-/

namespace Dmg

namespace Location

/-! ## The map of the addresses -/

/-- Where the addresses of each range lead. -/
inductive Leads (address : UInt16) : Location -> Prop where
  | image (below : address.toNat < 0x8000) : Leads address (image address)
  | videoMemory (offset : VideoOffset) (place : address.toNat = 0x8000 + offset.val) :
      Leads address (videoMemory offset)
  | cartridgeMemory (above : 0xA000 <= address.toNat) (below : address.toNat < 0xC000) :
      Leads address (cartridgeMemory address)
  | workMemory (offset : Fin 0x2000) (place : address.toNat = 0xC000 + offset.val) :
      Leads address (workMemory offset)
  | echo (offset : Fin 0x2000) (place : address.toNat = 0xE000 + offset.val)
      (below : address.toNat < 0xFE00) : Leads address (workMemory offset)
  | spriteMemory (offset : SpriteOffset) (place : address.toNat = 0xFE00 + offset.val) :
      Leads address (spriteMemory offset)
  | unused (above : 0xFEA0 <= address.toNat) (below : address.toNat < 0xFF00) :
      Leads address nowhere
  | lastPage (low : UInt8) (place : address.toNat = 0xFF00 + low.toNat) (below : low.toNat < 0x80) :
      Leads address (ofLastPage low)
  | highMemory (offset : Fin 127) (place : address.toNat = 0xFF80 + offset.val) :
      Leads address (highMemory offset)
  | interruptPermissions (last : address.toNat = 0xFFFF) : Leads address interruptPermissions

theorem leads_ofAddress (address : UInt16) : Leads address (ofAddress address) := by
  have bound : address.toNat < 0x10000 := address.toNat_lt
  unfold ofAddress
  dsimp only
  split
  · next below => exact .image below
  split
  · exact .videoMemory _ (by dsimp only; omega)
  split
  · exact .cartridgeMemory (by omega) (by omega)
  split
  · by_cases first : address.toNat < 0xE000
    · exact .workMemory _ (by dsimp only; omega)
    · exact .echo _ (by dsimp only; omega) (by omega)
  split
  · exact .spriteMemory _ (by dsimp only; omega)
  split
  · exact .unused (by omega) (by omega)
  split
  · exact .lastPage _ (by rw [Word.toNat_low]; omega) (by rw [Word.toNat_low]; omega)
  split
  · exact .highMemory _ (by dsimp only; omega)
  · exact .interruptPermissions (by omega)

/-- Whether a place is a byte of a memory that is always there. -/
def isMemory : Location -> Bool
  | videoMemory _ | workMemory _ | spriteMemory _ | highMemory _ => true
  | _ => false

theorem isMemory_ofLastPage (low : UInt8) : (ofLastPage low).isMemory = false := by
  rw [ofLastPage.eq_def]
  split <;> rfl

/-- The registers that are missing from the last page. -/
theorem ofLastPage_eq_nowhere {low : UInt8}
    (missing : low.toNat = 0x03 ∨ (0x08 <= low.toNat ∧ low.toNat <= 0x0E) ∨
      (0x10 <= low.toNat ∧ low.toNat <= 0x3F) ∨ (0x4C <= low.toNat ∧ low.toNat <= 0x4F) ∨
      0x51 <= low.toNat) : ofLastPage low = nowhere := by
  rw [ofLastPage.eq_def]
  split <;> first | rfl | simp at missing

/-- The addresses that lead nowhere. -/
theorem ofAddress_eq_nowhere {address : UInt16}
    (missing : (0xFEA0 <= address.toNat ∧ address.toNat < 0xFF00) ∨ address.toNat = 0xFF03 ∨
      (0xFF08 <= address.toNat ∧ address.toNat <= 0xFF0E) ∨
      (0xFF10 <= address.toNat ∧ address.toNat <= 0xFF3F) ∨
      (0xFF4C <= address.toNat ∧ address.toNat <= 0xFF4F) ∨
      (0xFF51 <= address.toNat ∧ address.toNat <= 0xFF7F)) : ofAddress address = nowhere := by
  have led := leads_ofAddress address
  generalize ofAddress address = place at led
  cases led with
  | unused => rfl
  | lastPage low place below => exact ofLastPage_eq_nowhere (by omega)
  | _ => omega

/-- Two addresses at which the same byte is read: they are one address, or one of
them is the echo of the other. -/
def SameByte (first second : UInt16) : Prop :=
  second = first ∨
    (0xC000 <= first.toNat ∧ first.toNat < 0xFE00) ∧
      (0xC000 <= second.toNat ∧ second.toNat < 0xFE00) ∧
      (second.toNat = first.toNat + 0x2000 ∨ first.toNat = second.toNat + 0x2000)

instance (first second : UInt16) : Decidable (SameByte first second) :=
  inferInstanceAs (Decidable (_ ∨ _))

/-- No two other addresses lead to the same byte of a memory. -/
theorem ofAddress_eq_iff_sameByte {written address : UInt16}
    (memory : (ofAddress written).isMemory = true) :
    ofAddress written = ofAddress address ↔ SameByte written address := by
  have first := leads_ofAddress written
  have second := leads_ofAddress address
  generalize ofAddress written = place at *
  generalize ofAddress address = other at *
  have notRegister (low : UInt8) : place ≠ ofLastPage low := by
    rintro rfl
    rw [isMemory_ofLastPage] at memory
    cases memory
  cases first with
  | image | cartridgeMemory | unused | interruptPermissions => cases memory
  | lastPage low => exact absurd rfl (notRegister low)
  | _ =>
    rw [SameByte, ← UInt16.toNat_inj]
    cases second with
    | lastPage low =>
        simp only [notRegister low, false_iff]
        omega
    | _ =>
        simp [Fin.ext_iff]
        omega

end Location

namespace Cartridge

/-! ## The memory of the cartridge -/

/-- Whether the memory of a cartridge answers. -/
def isOpen (cartridge : Cartridge) : Bool :=
  match cartridge.controller? with
  | none => true
  | some mbc => mbc.isOpen

theorem offset?_of_closed {cartridge : Cartridge} (closed : cartridge.isOpen = false)
    (address : UInt16) : cartridge.offset? address = none := by
  rw [isOpen] at closed
  rw [offset?]
  split
  · next none =>
    rw [none] at closed
    cases closed
  · next mbc controlled =>
    rw [controlled] at closed
    exact if_neg (Bool.eq_false_iff.mp closed)

/-- An open memory shows one of its banks. -/
theorem exists_offset?_of_open {cartridge : Cartridge} (opened : cartridge.isOpen = true) :
    ∃ bank, ∀ address : UInt16,
      cartridge.offset? address = some (bank * 0x2000 + address.toNat % 0x2000) := by
  rw [isOpen] at opened
  simp only [offset?]
  split
  · exact ⟨0, fun address => congrArg some (Nat.zero_add _).symm⟩
  · next mbc controlled =>
    rw [controlled] at opened
    exact ⟨mbc.memoryBank cartridge.memoryBanks, fun address => if_pos opened⟩

theorem offset?_writeMemory (cartridge : Cartridge) (written address : UInt16) (byte : UInt8) :
    (cartridge.writeMemory written byte).offset? address = cartridge.offset? address := by
  rw [writeMemory]
  split
  · rfl
  · rw [offset?, offset?, memoryBanks, Array.size_setIfInBounds]
    rfl

theorem readMemory_writeMemory {cartridge : Cartridge} (whole : cartridge.Whole)
    (opened : cartridge.isOpen = true) (written address : UInt16) (byte : UInt8) :
    (cartridge.writeMemory written byte).readMemory address =
      if written.toNat % 0x2000 = address.toNat % 0x2000 then byte
      else cartridge.readMemory address := by
  rcases exists_offset?_of_open opened with ⟨bank, found⟩
  have inside := whole.offset_lt (found written)
  rw [readMemory, offset?_writeMemory, found, writeMemory, found, readMemory, found]
  dsimp only
  rw [Array.getD_eq_getD_getElem?, Array.getElem?_setIfInBounds]
  by_cases same : written.toNat % 0x2000 = address.toNat % 0x2000
  · rw [if_pos same, ← same, if_pos rfl, if_pos inside]
    rfl
  · have apart : bank * 0x2000 + written.toNat % 0x2000 ≠ bank * 0x2000 + address.toNat % 0x2000 :=
      fun equal => same (Nat.add_left_cancel equal)
    rw [if_neg same, if_neg apart, ← Array.getD_eq_getD_getElem?]

end Cartridge

namespace Board

/-! ## Places -/

theorem get_set_eq_ite {Value : Type} {size : Nat} (values : Vector Value size)
    (written place : Fin size) (value : Value) :
    (values.set written.val value written.isLt).get place =
      if written = place then value else values.get place := by
  change (values.set written.val value written.isLt)[place.val] = if _ then _ else values[place.val]
  simp only [Vector.getElem_set, Fin.ext_iff]

/-- A store into a memory changes what is read there and nowhere else. -/
theorem readLocation_writeLocation (board : Board) {place : Location}
    (memory : place.isMemory = true) (other : Location) (byte : UInt8) :
    (board.writeLocation place byte).readLocation other =
      if place = other then byte else board.readLocation other := by
  cases place with
  | videoMemory offset =>
      cases other with
      | videoMemory second =>
          simp only [Location.videoMemory.injEq]
          exact get_set_eq_ite board.video.vram offset second byte
      | _ => rfl
  | workMemory offset =>
      cases other with
      | workMemory second =>
          simp only [Location.workMemory.injEq]
          exact get_set_eq_ite board.workMemory offset second byte
      | _ => rfl
  | spriteMemory offset =>
      cases other with
      | spriteMemory second =>
          simp only [Location.spriteMemory.injEq]
          exact get_set_eq_ite board.video.oam offset second byte
      | _ => rfl
  | highMemory offset =>
      cases other with
      | highMemory second =>
          simp only [Location.highMemory.injEq]
          exact get_set_eq_ite board.highMemory offset second byte
      | _ => rfl
  | _ => cases memory

/-- A store into the memory of the cartridge is not seen in its image, nor anywhere
beside the cartridge. -/
theorem readLocation_writeMemory (board : Board) (written : UInt16) (byte : UInt8)
    {other : Location} (elsewhere : ∀ address, other ≠ .cartridgeMemory address) :
    (board.writeLocation (.cartridgeMemory written) byte).readLocation other =
      board.readLocation other := by
  have kept : (board.cartridge.writeMemory written byte).image = board.cartridge.image ∧
      (board.cartridge.writeMemory written byte).controller? = board.cartridge.controller? := by
    rw [Cartridge.writeMemory]
    split <;> exact ⟨rfl, rfl⟩
  cases other with
  | cartridgeMemory address => exact absurd rfl (elsewhere address)
  | image address =>
      simp only [readLocation, writeLocation, readImage, Cartridge.readImage, Cartridge.imageBanks,
        kept]
  | _ => rfl

/-! ## Addresses -/

/-- Whether an address keeps a byte for the program. -/
def Keeps (board : Board) (address : UInt16) : Prop :=
  (0x8000 <= address.toNat ∧ address.toNat < 0xA000) ∨
    (0xA000 <= address.toNat ∧ address.toNat < 0xC000) ∧ board.cartridge.isOpen = true ∨
    (0xC000 <= address.toNat ∧ address.toNat < 0xFEA0) ∨
    (0xFF80 <= address.toNat ∧ address.toNat < 0xFFFF)

/-- Whether an address takes no byte: nothing is there, or it can be read only. -/
def Ignores (board : Board) (address : UInt16) : Prop :=
  address.toNat < 0x8000 ∧ board.cartridge.controller? = none ∨
    (0xA000 <= address.toNat ∧ address.toNat < 0xC000) ∧ board.cartridge.isOpen = false ∨
    (0xFEA0 <= address.toNat ∧ address.toNat < 0xFF00) ∨
    address.toNat = 0xFF03 ∨
    (0xFF08 <= address.toNat ∧ address.toNat <= 0xFF0E) ∨
    (0xFF10 <= address.toNat ∧ address.toNat <= 0xFF3F) ∨
    address.toNat = 0xFF44 ∨
    (0xFF4C <= address.toNat ∧ address.toNat <= 0xFF4F) ∨
    (0xFF51 <= address.toNat ∧ address.toNat <= 0xFF7F)

instance (board : Board) (address : UInt16) : Decidable (board.Keeps address) :=
  inferInstanceAs (Decidable (_ ∨ _))

instance (board : Board) (address : UInt16) : Decidable (board.Ignores address) :=
  inferInstanceAs (Decidable (_ ∨ _))

theorem read_write_of_isMemory (board : Board) {written : UInt16}
    (memory : (Location.ofAddress written).isMemory = true) (address : UInt16) (byte : UInt8) :
    (board.write written byte).read address =
      if Location.SameByte written address then byte else board.read address := by
  rw [read, write, board.readLocation_writeLocation memory]
  simp only [Location.ofAddress_eq_iff_sameByte memory, read]

/-- The memory of a cartridge shows as many bytes as there are addresses, so none is shown
twice. -/
theorem read_write_of_cartridgeMemory {board : Board} (whole : board.cartridge.Whole)
    (opened : board.cartridge.isOpen = true) {written : UInt16} (above : 0xA000 <= written.toNat)
    (below : written.toNat < 0xC000) (address : UInt16) (byte : UInt8) :
    (board.write written byte).read address =
      if Location.SameByte written address then byte else board.read address := by
  rw [write, Location.ofAddress_of_cartridgeMemory above below]
  by_cases inside : 0xA000 <= address.toNat ∧ address.toNat < 0xC000
  · have same : written.toNat % 0x2000 = address.toNat % 0x2000 ↔
        Location.SameByte written address := by
      rw [Location.SameByte, ← UInt16.toNat_inj]
      omega
    rw [read, read, Location.ofAddress_of_cartridgeMemory inside.1 inside.2]
    refine (Cartridge.readMemory_writeMemory whole opened written address byte).trans ?_
    simp only [same, readLocation]
  · have other : ¬ Location.SameByte written address := by
      rw [Location.SameByte, ← UInt16.toNat_inj]
      omega
    rw [if_neg other, read]
    apply readLocation_writeMemory
    intro place leads
    by_cases image : address.toNat < 0x8000
    · rw [Location.ofAddress_of_image image] at leads
      cases leads
    · have outside := Location.isOfCartridge_ofAddress image inside
      rw [leads] at outside
      cases outside

/-- An address that keeps a byte shows it from then on, at its echo as well, and
every other address shows what it did before. -/
theorem read_write_of_keeps {board : Board} (whole : board.cartridge.Whole) {written : UInt16}
    (keeps : board.Keeps written) (address : UInt16) (byte : UInt8) :
    (board.write written byte).read address =
      if Location.SameByte written address then byte else board.read address := by
  by_cases memory : (Location.ofAddress written).isMemory = true
  · exact board.read_write_of_isMemory memory address byte
  · have led := Location.leads_ofAddress written
    rw [Keeps] at keeps
    have range : (0xA000 <= written.toNat ∧ written.toNat < 0xC000) ∧
        board.cartridge.isOpen = true := by
      generalize Location.ofAddress written = place at led memory
      cases led with
      | videoMemory | workMemory | echo | spriteMemory | highMemory => exact absurd rfl memory
      | cartridgeMemory above below =>
          rcases keeps with video | cartridge | work | high
          · omega
          · exact cartridge
          · omega
          · omega
      | _ => omega
    exact read_write_of_cartridgeMemory whole range.2 range.1.1 range.1.2 address byte

theorem write_eq_self_of_uncontrolled {board : Board} {written : UInt16}
    (image : written.toNat < 0x8000) (uncontrolled : board.cartridge.controller? = none)
    (byte : UInt8) : board.write written byte = board := by
  rw [write, Location.ofAddress_of_image image]
  have same : board.cartridge.writeImage written byte = board.cartridge := by
    rw [Cartridge.writeImage, uncontrolled, Option.map_none, ← uncontrolled]
  rw [writeLocation, same]

theorem write_eq_self_of_closed {board : Board} {written : UInt16} (above : 0xA000 <= written.toNat)
    (below : written.toNat < 0xC000) (closed : board.cartridge.isOpen = false) (byte : UInt8) :
    board.write written byte = board := by
  rw [write, Location.ofAddress_of_cartridgeMemory above below]
  have same : board.cartridge.writeMemory written byte = board.cartridge := by
    rw [Cartridge.writeMemory, Cartridge.offset?_of_closed closed]
  rw [writeLocation, same]

theorem write_eq_self_of_nowhere {board : Board} {written : UInt16}
    (nowhere : Location.ofAddress written = .nowhere) (byte : UInt8) :
    board.write written byte = board := by
  rw [write, nowhere]
  rfl

/-- The register that holds the line that is drawn can be read only. -/
theorem write_line_eq_self (board : Board) (byte : UInt8) : board.write 0xFF44 byte = board := by
  change { board with
    interrupts := { board.interrupts with requests := board.interrupts.requests ||| 0 } } = board
  rw [UInt8.or_zero]

theorem write_eq_self_of_ignores {board : Board} {written : UInt16}
    (ignores : board.Ignores written) (byte : UInt8) : board.write written byte = board := by
  rcases ignores with ⟨image, uncontrolled⟩ | ⟨⟨above, below⟩, closed⟩ | rest
  · exact write_eq_self_of_uncontrolled image uncontrolled byte
  · exact write_eq_self_of_closed above below closed byte
  · by_cases line : written = 0xFF44
    · rw [line]
      exact board.write_line_eq_self byte
    · rw [← UInt16.toNat_inj] at line
      change written.toNat ≠ 0xFF44 at line
      exact write_eq_self_of_nowhere (Location.ofAddress_eq_nowhere (by omega)) byte

/-- Whatever has happened to a board, each of its addresses that keeps a byte shows
the byte that was written last, at its echo as well, and a write changes nothing
that is read elsewhere.  A write to an address that takes no byte changes nothing
that is read anywhere. -/
theorem read_write_of_reached {board : Board} (reached : board.Reached) (written address : UInt16)
    (byte : UInt8) :
    (board.Keeps written ->
      (board.write written byte).read address =
        if Location.SameByte written address then byte else board.read address) ∧
    (board.Ignores written -> (board.write written byte).read address = board.read address) := by
  constructor
  · intro keeps
    exact read_write_of_keeps reached.sound.cartridge keeps address byte
  · intro ignores
    rw [write_eq_self_of_ignores ignores]

/-- A byte in work memory is seen in its echo.  Behind sprite memory nothing is
kept. -/
theorem echo_of_empty_board :
    (empty .green).Reached ∧ (empty .green).Keeps 0xC123 ∧ (empty .green).Ignores 0xFEA0 ∧
      ((empty .green).write 0xC123 0x5A).read 0xE123 = 0x5A ∧
      ((empty .green).write 0xFEA0 0x5A).read 0xFEA0 = (empty .green).read 0xFEA0 := by
  have reached := reached_empty .green
  have keeps : (empty .green).Keeps 0xC123 := by decide
  have ignores : (empty .green).Ignores 0xFEA0 := by decide
  have same : Location.SameByte 0xC123 0xE123 := by decide
  refine ⟨reached, keeps, ignores, ?_, (read_write_of_reached reached 0xFEA0 0xFEA0 0x5A).2 ignores⟩
  exact ((read_write_of_reached reached 0xC123 0xE123 0x5A).1 keeps).trans (if_pos same)

end Board

end Dmg
