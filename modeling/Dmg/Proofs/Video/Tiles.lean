import Dmg.Proofs.Video.Place
import Mathlib.Algebra.Group.Nat.Defs

/-!
# Decoded tiles

The decoded rows of the tiles are kept beside the memory that they come from, and
a store decodes no more than the row that it falls into.  So the rows are right
only because every store that reaches a byte of a row decodes the same row, and
because whatever clears the memory clears the rows with it.
-/

namespace Dmg

namespace TileRow

theorem val_indexOfBits (low high : Bool) :
    (indexOfBits low high).val = low.toNat + 2 * high.toNat := by
  cases low <;> cases high <;> rfl

/-- The leftmost column comes from the highest bits. -/
theorem val_get_decode (low high : UInt8) (column : Fin 8) :
    ((decode low high).get column).val =
      low.toNat / 2 ^ (7 - column.val) % 2 + 2 * (high.toNat / 2 ^ (7 - column.val) % 2) := by
  change (decode low high)[column.val].val = _
  rw [decode, Vector.getElem_ofFn, val_indexOfBits, Nat.toNat_testBit, Nat.toNat_testBit]

theorem decode_zero : decode 0 0 = blank := by
  decide

end TileRow

namespace Video

/-- Every decoded row comes from the two bytes that it belongs to. -/
def Mirrors (vram : VideoMemory) (rows : TileRows) : Prop :=
  ∀ (row : Nat) (inside : row < 3072),
    rows[row] = TileRow.decode vram[2 * row] vram[2 * row + 1]

theorem mirrors_blank : Mirrors (Vector.replicate 0x2000 0) TileRows.blank := by
  intro row inside
  rw [TileRows.blank, Vector.getElem_replicate, Vector.getElem_replicate,
    Vector.getElem_replicate, TileRow.decode_zero]

/-- A store reaches both bytes of no row but the one that it decodes. -/
theorem Mirrors.refreshTileRow {vram : VideoMemory} {rows : TileRows} (mirrors : Mirrors vram rows)
    (offset : VideoOffset) (byte : UInt8) :
    Mirrors (vram.set offset.val byte)
      (Video.refreshTileRow (vram.set offset.val byte) rows offset) := by
  intro row inside
  have low : 2 * row ≠ offset.val -> (vram.set offset.val byte)[2 * row] = vram[2 * row] :=
    fun other => Vector.getElem_set_ne _ _ other.symm
  have high : 2 * row + 1 ≠ offset.val ->
      (vram.set offset.val byte)[2 * row + 1] = vram[2 * row + 1] :=
    fun other => Vector.getElem_set_ne _ _ other.symm
  rw [Video.refreshTileRow]
  split
  · by_cases same : offset.val / 2 = row
    · subst same
      rw [Vector.getElem_set_self]
    · rw [Vector.getElem_set_ne _ _ same, mirrors row inside, low (by omega), high (by omega)]
  · rw [mirrors row inside, low (by omega), high (by omega)]

theorem Mirrors.act {video : Video} (mirrors : Mirrors video.vram video.tileRows)
    (action : Action) : Mirrors (video.act action).vram (video.act action).tileRows := by
  have kept {later : Video} (same : later.stored = video.stored) :
      Mirrors later.vram later.tileRows := by
    rw [show later.vram = video.vram from (congrArg Store.vram same :),
      show later.tileRows = video.tileRows from (congrArg Store.tileRows same :)]
    exact mirrors
  cases action with
  | step cycles => exact kept (stored_step video cycles)
  | command command =>
      cases command with
      | reset => exact mirrors_blank
      | writeVram offset byte => exact mirrors.refreshTileRow offset byte
      | writeOam offset byte => exact mirrors
      | writeRegister register byte => exact kept (stored_writeRegister video register byte)

theorem Mirrors.actAll {video : Video} (mirrors : Mirrors video.vram video.tileRows)
    (actions : List Action) :
    Mirrors (video.actAll actions).vram (video.actAll actions).tileRows := by
  induction actions generalizing video with
  | nil => exact mirrors
  | cons action actions inductionHypothesis => exact inductionHypothesis (mirrors.act action)

theorem Reached.mirrors {video : Video} (reached : video.Reached) :
    Mirrors video.vram video.tileRows := by
  rcases reached with ⟨shades, actions, rfl⟩
  have blank : Mirrors (initial shades).vram (initial shades).tileRows := mirrors_blank
  exact blank.actAll actions

/-- Whatever has been stored and cleared, a pixel of a tile has the colour index
that the two bytes of its row give to its column. -/
theorem pixels_mirror_memory {video : Video} (reached : video.Reached) (tile : TileIndex)
    (row column : Fin 8) :
    (video.tileRows.pixel tile row column).val =
      video.vram[16 * tile.val + 2 * row.val].toNat / 2 ^ (7 - column.val) % 2 +
        2 * (video.vram[16 * tile.val + 2 * row.val + 1].toNat / 2 ^ (7 - column.val) % 2) := by
  have inside : 8 * tile.val + row.val < 3072 := by omega
  have bytes : 2 * (8 * tile.val + row.val) = 16 * tile.val + 2 * row.val := by omega
  rw [TileRows.pixel, reached.mirrors _ inside, TileRow.val_get_decode]
  simp only [bytes]

/-- A unit with a row of its second tile stored, the high bits first, which then
draws lines and is switched off. -/
def scribbled : Video :=
  (initial .green).actAll
    [.command (.writeVram 0x0013 0x81), .command (.writeVram 0x0012 0x01), .step 500,
      .command (.writeRegister .lcdc 0x11)]

/-- The rightmost pixel of the row has a bit from either byte. -/
theorem scribbled_mirrors_memory :
    scribbled.Reached ∧ (scribbled.tileRows.pixel 1 1 7).val = 3 := by
  have reached : scribbled.Reached := ⟨.green, _, rfl⟩
  refine ⟨reached, (pixels_mirror_memory reached 1 1 7).trans ?_⟩
  have same : scribbled.stored =
      (((initial .green).writeVram 0x0013 0x81).writeVram 0x0012 0x01).stored :=
    (stored_writeRegister _ .lcdc 0x11).trans (stored_step _ 500)
  rw [show scribbled.vram = _ from (congrArg Store.vram same :)]
  decide +kernel

end Video

end Dmg
