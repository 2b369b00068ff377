import Dmg.Board.Basic
import Mathlib.Algebra.Group.Nat.Defs

/-!
# Images that are accepted

An image is accepted for its length and for one byte of its header.  From then on
a cartridge is what its image makes of it, apart from its memory and the registers
of its controller; these are what a write can change and what a reset puts back.
-/

namespace Dmg

namespace Cartridge

/-! ## Acceptance -/

theorem mem_imageSizes_iff {bytes : Nat} :
    bytes ∈ imageSizes ↔ ∃ doublings, doublings <= 8 ∧ bytes = 0x8000 * 2 ^ doublings := by
  simp only [imageSizes, List.mem_map, List.mem_range, Nat.lt_succ_iff, Nat.shiftLeft_eq,
    eq_comm (a := bytes)]

/-- An image that can be accepted is a number of banks, and at least two. -/
theorem size_of_mem_imageSizes {bytes : Nat} (member : bytes ∈ imageSizes) :
    2 <= bytes / 0x4000 ∧ bytes = bytes / 0x4000 * 0x4000 := by
  rcases mem_imageSizes_iff.mp member with ⟨doublings, -, rfl⟩
  have positive : 0 < 2 ^ doublings := Nat.pow_pos (by decide)
  omega

theorem isSome_ofCode?_iff {code : UInt8} :
    (CartridgeKind.ofCode? code).isSome = true ↔ code <= 3 := by
  rw [CartridgeKind.ofCode?, UInt8.le_iff_toNat_le]
  simp only [← UInt8.toNat_inj]
  change _ ↔ code.toNat <= 3
  repeat' split
  all_goals simp_all
  omega

/-- The cartridge of an image of a kind when power comes on. -/
def ofKind (image : ByteArray) (kind : CartridgeKind) : Cartridge where
  image := image
  memory := Array.replicate
    (memoryBanksOfCode (imageByte image memoryOffset) * Mbc1.memoryBankSize) 0
  kind := kind
  controller? := kind.controller?

theorem ofImage_eq_ok_iff {image : ByteArray} {cartridge : Cartridge} :
    ofImage image = .ok cartridge ↔ image.size ∈ imageSizes ∧
      ∃ kind, CartridgeKind.ofCode? (imageByte image kindOffset) = some kind ∧
        cartridge = ofKind image kind := by
  rw [ofImage]
  by_cases size : image.size ∈ imageSizes
  · rw [if_pos (List.contains_iff_mem.mpr size)]
    cases CartridgeKind.ofCode? (imageByte image kindOffset) with
    | none => simp
    | some kind => simp [size, ofKind, eq_comm]
  · simp [size]

/-- Which images are accepted. -/
theorem exists_ofImage_eq_ok_iff {image : ByteArray} :
    (∃ cartridge, ofImage image = .ok cartridge) ↔
      (∃ doublings, doublings <= 8 ∧ image.size = 0x8000 * 2 ^ doublings) ∧
        imageByte image kindOffset <= 3 := by
  rw [← mem_imageSizes_iff, ← isSome_ofCode?_iff, Option.isSome_iff_exists]
  constructor
  · rintro ⟨cartridge, accepted⟩
    rcases ofImage_eq_ok_iff.mp accepted with ⟨size, kind, named, -⟩
    exact ⟨size, kind, named⟩
  · rintro ⟨size, kind, named⟩
    exact ⟨_, ofImage_eq_ok_iff.mpr ⟨size, kind, named, rfl⟩⟩

theorem image_of_ofImage {image : ByteArray} {cartridge : Cartridge}
    (accepted : ofImage image = .ok cartridge) : cartridge.image = image := by
  rcases ofImage_eq_ok_iff.mp accepted with ⟨-, kind, -, rfl⟩
  rfl

theorem isLoaded_of_ofImage {image : ByteArray} {cartridge : Cartridge}
    (accepted : ofImage image = .ok cartridge) : cartridge.isLoaded = true := by
  rcases size_of_mem_imageSizes (ofImage_eq_ok_iff.mp accepted).1 with ⟨banks, -⟩
  rw [isLoaded, image_of_ofImage accepted, bne_iff_ne]
  intro blank
  rw [blank] at banks
  exact absurd banks (by decide)

/-- An image of a length with the byte that is given for each offset. -/
def imageOf (size : Nat) (byteAt : Nat -> UInt8) : ByteArray :=
  ⟨Array.ofFn fun offset : Fin size => byteAt offset.val⟩

@[simp] theorem size_imageOf (size : Nat) (byteAt : Nat -> UInt8) :
    (imageOf size byteAt).size = size :=
  Array.size_ofFn

theorem imageByte_of_lt {image : ByteArray} {offset : Nat} (inside : offset < image.size) :
    imageByte image offset = image[offset] :=
  dif_pos inside

theorem imageByte_imageOf {size : Nat} {byteAt : Nat -> UInt8} {offset : Nat}
    (inside : offset < size) : imageByte (imageOf size byteAt) offset = byteAt offset := by
  rw [imageByte_of_lt (Nat.lt_of_lt_of_eq inside (size_imageOf size byteAt).symm)]
  exact Array.getElem_ofFn _

/-! ## What writes and resets change -/

theorem reset_absent : absent.reset = absent := by
  simp [reset, absent]

theorem reset_reset (cartridge : Cartridge) : cartridge.reset.reset = cartridge.reset := by
  cases same : cartridge.controller? <;> simp [reset, same]

theorem reset_of_ofImage {image : ByteArray} {cartridge : Cartridge}
    (accepted : ofImage image = .ok cartridge) : cartridge.reset = cartridge := by
  rcases ofImage_eq_ok_iff.mp accepted with ⟨-, kind, -, rfl⟩
  cases kind <;> simp [reset, ofKind, CartridgeKind.controller?]

/-- The cartridge after a write.  Only the image range and the memory range lead
to the cartridge. -/
def put (cartridge : Cartridge) (write : UInt16 × UInt8) : Cartridge :=
  if write.1.toNat < 0x8000 then cartridge.writeImage write.1 write.2
  else if 0xA000 <= write.1.toNat ∧ write.1.toNat < 0xC000 then
    cartridge.writeMemory write.1 write.2
  else cartridge

@[simp] theorem reset_writeImage (cartridge : Cartridge) (address : UInt16) (byte : UInt8) :
    (cartridge.writeImage address byte).reset = cartridge.reset := by
  rw [reset, reset, writeImage]
  cases cartridge.controller? <;> rfl

@[simp] theorem reset_writeMemory (cartridge : Cartridge) (address : UInt16) (byte : UInt8) :
    (cartridge.writeMemory address byte).reset = cartridge.reset := by
  rw [writeMemory]
  cases cartridge.offset? address with
  | none => rfl
  | some offset => simp [reset]

@[simp] theorem reset_put (cartridge : Cartridge) (write : UInt16 × UInt8) :
    (cartridge.put write).reset = cartridge.reset := by
  rw [put]
  split
  · exact reset_writeImage cartridge write.1 write.2
  · split
    · exact reset_writeMemory cartridge write.1 write.2
    · rfl

end Cartridge

/-! ## Cartridges on a board -/

namespace Location

/-- Whether a place is one of the cartridge. -/
def isOfCartridge : Location -> Bool
  | .image _ | .cartridgeMemory _ => true
  | _ => false

theorem isOfCartridge_ofLastPage (low : UInt8) : (ofLastPage low).isOfCartridge = false := by
  rw [ofLastPage.eq_def]
  split <;> rfl

theorem ofAddress_of_image {address : UInt16} (below : address.toNat < 0x8000) :
    ofAddress address = .image address := by
  rw [ofAddress]
  exact if_pos below

theorem ofAddress_of_cartridgeMemory {address : UInt16} (above : 0xA000 <= address.toNat)
    (below : address.toNat < 0xC000) : ofAddress address = .cartridgeMemory address := by
  rw [ofAddress, if_neg (by omega), if_neg (by omega), if_pos below]

theorem isOfCartridge_ofAddress {address : UInt16} (notImage : ¬ address.toNat < 0x8000)
    (notMemory : ¬ (0xA000 <= address.toNat ∧ address.toNat < 0xC000)) :
    (ofAddress address).isOfCartridge = false := by
  rw [ofAddress, if_neg notImage]
  split
  · rfl
  next notVideo =>
  rw [if_neg (fun below => notMemory ⟨Nat.not_lt.mp notVideo, below⟩)]
  split
  · rfl
  split
  · rfl
  split
  · rfl
  split
  · exact isOfCartridge_ofLastPage _
  split
  · rfl
  · rfl

end Location

namespace Board

theorem cartridge_writeLocation (board : Board) {location : Location} (byte : UInt8)
    (other : location.isOfCartridge = false) :
    (board.writeLocation location byte).cartridge = board.cartridge := by
  cases location with
  | image address => cases other
  | cartridgeMemory address => cases other
  | transfer =>
      rcases board.exists_transfer_eq byte with ⟨oam, same⟩
      rw [writeLocation, same]
  | _ => rfl

/-- The processor reaches the cartridge by writes to its two ranges only. -/
theorem cartridge_write (board : Board) (address : UInt16) (byte : UInt8) :
    (board.write address byte).cartridge = board.cartridge.put (address, byte) := by
  rw [write, Cartridge.put]
  split
  · next below =>
    rw [Location.ofAddress_of_image below]
    rfl
  next notImage =>
  split
  · next inside =>
    rw [Location.ofAddress_of_cartridgeMemory inside.1 inside.2]
    rfl
  · next notMemory =>
    exact board.cartridge_writeLocation byte (Location.isOfCartridge_ofAddress notImage notMemory)

end Board

end Dmg
