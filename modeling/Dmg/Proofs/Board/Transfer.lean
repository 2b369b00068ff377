import Dmg.Proofs.Board.Storage

/-!
# Transfers to sprite memory

A transfer copies a page byte after byte, each read through the whole map of the
addresses.  The page can be any, also one whose bytes the transfer changes on its way:
that of sprite memory, or the last one, which has the register of the transfer among its
bytes.

What is copied is the page as it was all the same.  A byte of sprite memory is the source
of no byte but itself, so no copy is seen by a later one, and the register is the one
place that has changed before the first byte is read.
-/

namespace Dmg

namespace Location

theorem ofLastPage_ne_spriteMemory (low : UInt8) (offset : SpriteOffset) :
    ofLastPage low ≠ spriteMemory offset := by
  intro same
  have memory := isMemory_ofLastPage low
  rw [same] at memory
  cases memory

/-- Each byte of sprite memory has one address. -/
theorem ofAddress_eq_spriteMemory_iff {address : UInt16} {offset : SpriteOffset} :
    ofAddress address = spriteMemory offset ↔ address.toNat = 0xFE00 + offset.val := by
  have led := leads_ofAddress address
  generalize ofAddress address = place at led
  cases led with
  | spriteMemory other place =>
      rw [spriteMemory.injEq, Fin.ext_iff]
      omega
  | lastPage low place =>
      rw [iff_false_left (ofLastPage_ne_spriteMemory low offset)]
      omega
  | _ =>
      simp only [reduceCtorEq, false_iff]
      omega

theorem ofLastPage_eq_transfer_iff {low : UInt8} : ofLastPage low = transfer ↔ low = 0x46 := by
  rw [ofLastPage.eq_def]
  split <;> simp_all

/-- The register of the transfer has one address. -/
theorem ofAddress_eq_transfer_iff {address : UInt16} :
    ofAddress address = transfer ↔ address = 0xFF46 := by
  have led := leads_ofAddress address
  rw [← UInt16.toNat_inj]
  change _ ↔ address.toNat = 0xFF46
  generalize ofAddress address = place at led
  cases led with
  | lastPage low place =>
      rw [ofLastPage_eq_transfer_iff, ← UInt8.toNat_inj]
      change low.toNat = 0x46 ↔ _
      omega
  | _ =>
      simp only [reduceCtorEq, false_iff]
      omega

end Location

namespace Board

def source (page : UInt8) (offset : SpriteOffset) : UInt16 :=
  Word.ofBytes page (UInt8.ofNat offset.val)

theorem toNat_source (page : UInt8) (offset : SpriteOffset) :
    (source page offset).toNat = 256 * page.toNat + offset.val := by
  have low : (UInt8.ofNat offset.val).toNat = offset.val := by
    rw [UInt8.toNat_ofNat']
    omega
  rw [source, Word.toNat_ofBytes, low]

/-! ## One byte -/

theorem readLocation_transferByte (page : UInt8) (board : Board) (offset : SpriteOffset)
    (place : Location) :
    (transferByte page board offset).readLocation place =
      if .spriteMemory offset = place then board.read (source page offset)
      else board.readLocation place := by
  have memory : (Location.spriteMemory offset).isMemory = true := rfl
  exact board.readLocation_writeLocation memory place _

/-- No byte of the page is changed by a copy: the only source in sprite memory of the byte
that is written is that byte itself. -/
theorem read_source_transferByte (page : UInt8) (board : Board) (written offset : SpriteOffset) :
    (transferByte page board written).read (source page offset) =
      board.read (source page offset) := by
  rw [read, readLocation_transferByte]
  split
  · next same =>
    have place := Location.ofAddress_eq_spriteMemory_iff.mp same.symm
    rw [toNat_source] at place
    have offsets : written = offset := Fin.ext (by omega)
    rw [offsets]
  · rfl

/-! ## A whole page -/

/-- However many bytes have been copied and in whichever order, each is what the page
held before the first one. -/
theorem readLocation_transferBytes (page : UInt8) (offsets : List SpriteOffset) (board : Board)
    (place : Location) :
    (offsets.foldl (transferByte page) board).readLocation place =
      match place with
      | .spriteMemory offset =>
          if offset ∈ offsets then board.read (source page offset)
          else board.readLocation (.spriteMemory offset)
      | other => board.readLocation other := by
  induction offsets generalizing board with
  | nil => cases place <;> rfl
  | cons first offsets inductionHypothesis =>
      rw [List.foldl_cons, inductionHypothesis]
      cases place with
      | spriteMemory offset =>
          simp only [read_source_transferByte, readLocation_transferByte, List.mem_cons,
            Location.spriteMemory.injEq]
          by_cases later : offset ∈ offsets
          · simp only [later, or_true, if_true]
          · by_cases same : first = offset
            · simp only [same, later, true_or, if_true, if_false]
            · simp only [same, Ne.symm same, later, or_self, if_false]
      | _ => exact readLocation_transferByte page board first _

/-- The register takes the page before anything is copied. -/
theorem readLocation_withPage (board : Board) (page : UInt8) (place : Location) :
    { board with transferPage := page }.readLocation place =
      if place = .transfer then page else board.readLocation place := by
  cases place <;> rfl

/-- What a transfer leaves behind, told by the addresses. -/
structure Transferred (page : UInt8) (before after : Board) : Prop where
  /-- Every byte of sprite memory is the byte of the page as it was.  Only the register of
  the transfer is copied with the page that it has been given. -/
  copied : ∀ index < 160, after.read (UInt16.ofNat (0xFE00 + index)) =
    if page = 0xFF ∧ index = 0x46 then 0xFF
    else before.read (UInt16.ofNat (256 * page.toNat + index))
  register : after.read 0xFF46 = page
  elsewhere : ∀ address : UInt16, address.toNat < 0xFE00 ∨ 0xFEA0 <= address.toNat ->
    address ≠ 0xFF46 -> after.read address = before.read address

theorem write_transfer_eq (board : Board) (page : UInt8) :
    board.write 0xFF46 page =
      (List.finRange 160).foldl (transferByte page) { board with transferPage := page } := by
  rw [write, Location.ofAddress_eq_transfer_iff.mpr rfl]
  rfl

/-- A transfer from any page copies the page as it was, gives its register the page, and
changes nothing that is read elsewhere. -/
theorem transfer_copies_snapshot (board : Board) (page : UInt8) :
    Transferred page board (board.write 0xFF46 page) := by
  rw [write_transfer_eq]
  refine ⟨fun index within => ?_, ?_, fun address outside other => ?_⟩
  · have bound := page.toNat_lt
    let offset : SpriteOffset := ⟨index, within⟩
    have target : Location.ofAddress (UInt16.ofNat (0xFE00 + index)) = .spriteMemory offset := by
      rw [Location.ofAddress_eq_spriteMemory_iff, UInt16.toNat_ofNat']
      exact Nat.mod_eq_of_lt (by omega)
    have origin : UInt16.ofNat (256 * page.toNat + index) = source page offset := by
      rw [← UInt16.toNat_inj, toNat_source, UInt16.toNat_ofNat']
      exact Nat.mod_eq_of_lt (by omega)
    have register : Location.ofAddress (source page offset) = .transfer ↔
        page = 0xFF ∧ index = 0x46 := by
      rw [Location.ofAddress_eq_transfer_iff, ← UInt16.toNat_inj, toNat_source, ← UInt8.toNat_inj]
      change 256 * page.toNat + index = 0xFF46 ↔ page.toNat = 0xFF ∧ index = 0x46
      omega
    rw [read, target, readLocation_transferBytes, origin]
    dsimp only
    rw [if_pos (List.mem_finRange offset), read, readLocation_withPage]
    simp only [register]
    split
    · next last => exact last.1
    · rfl
  · rw [read, Location.ofAddress_eq_transfer_iff.mpr rfl, readLocation_transferBytes]
    rfl
  · have apart : ∀ offset, Location.ofAddress address ≠ .spriteMemory offset := by
      intro offset same
      have place := Location.ofAddress_eq_spriteMemory_iff.mp same
      omega
    have unwritten : Location.ofAddress address ≠ .transfer :=
      fun same => other (Location.ofAddress_eq_transfer_iff.mp same)
    rw [read, readLocation_transferBytes]
    split
    · next offset same => exact absurd same (apart offset)
    · rw [readLocation_withPage, if_neg unwritten, read]

/-- A board with a byte in high memory, where a transfer from the last page finds it. -/
def marked : Board :=
  (empty .green).write 0xFF80 0x5A

/-- The byte arrives, and beside it what the register of the transfer shows by then. -/
theorem marked_is_transferred :
    (marked.write 0xFF46 0xFF).read 0xFE80 = 0x5A ∧
      (marked.write 0xFF46 0xFF).read 0xFE46 = 0xFF ∧ marked.read 0xFF46 = 0x00 ∧
      (marked.write 0xFF46 0xFF).read 0xFF80 = 0x5A := by
  have transferred := transfer_copies_snapshot marked 0xFF
  have kept : marked.read 0xFF80 = 0x5A := by decide +kernel
  refine ⟨(transferred.copied 0x80 (by decide)).trans ?_, transferred.copied 0x46 (by decide),
    by decide +kernel, (transferred.elsewhere 0xFF80 (by decide) (by decide)).trans kept⟩
  exact (if_neg (by decide)).trans kept

end Board

end Dmg
