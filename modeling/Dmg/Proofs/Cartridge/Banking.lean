import Dmg.Proofs.Cartridge.Images

/-!
# A banked cartridge

A program knows a cartridge with a controller by what it has written to it.  The
last byte written to each quarter of the image range chooses banks and opens the
memory, and each byte of the memory is the last one that was written there while
the memory was open and its bank was chosen.

What has been written is enough to say what is read.  The banks that are chosen
are among those that the cartridge has, so every read finds a byte of the image or
of the memory, and the image stays as it is.
-/

namespace Dmg

/-- What has been written, address by address, the latest write first. -/
abbrev Writes := List (UInt16 × UInt8)

namespace Writes

/-! ## What writes choose -/

/-- The byte that was written last to the addresses from one to below another. -/
def last? (start stop : Nat) (past : Writes) : Option UInt8 :=
  (past.find? fun write => decide (start <= write.1.toNat ∧ write.1.toNat < stop)).map Prod.snd

/-- The lower part of the bank number: five bits, of which some one is raised. -/
def low (past : Writes) : Nat :=
  match last? 0x2000 0x4000 past with
  | none => 1
  | some byte => if byte.toNat % 32 = 0 then 1 else byte.toNat % 32

/-- The upper part of the bank number: two bits. -/
def high (past : Writes) : Nat :=
  match last? 0x4000 0x6000 past with
  | none => 0
  | some byte => byte.toNat % 4

/-- Whether the upper part counts in the lower half of the image range and for the
memory. -/
def isAdvanced (past : Writes) : Bool :=
  match last? 0x6000 0x8000 past with
  | none => false
  | some byte => byte.toNat % 2 == 1

def isOpen (past : Writes) : Bool :=
  match last? 0x0000 0x2000 past with
  | none => false
  | some byte => byte.toNat % 16 == 10

/-- The bank of the lower half of the image range, of so many. -/
def lowerBank (past : Writes) (banks : Nat) : Nat :=
  if past.isAdvanced then past.high * 32 % banks else 0

/-- The bank of the upper half of the image range, of so many. -/
def upperBank (past : Writes) (banks : Nat) : Nat :=
  (past.high * 32 + past.low) % banks

/-- The bank of the memory, of so many. -/
def memoryBank (past : Writes) (banks : Nat) : Nat :=
  if past.isAdvanced then past.high % banks else 0

/-- Whether a write behind earlier ones stores into a place of a bank. -/
def Stores (banks bank offset : Nat) (write : UInt16 × UInt8) (earlier : Writes) : Prop :=
  (0xA000 <= write.1.toNat ∧ write.1.toNat < 0xC000) ∧ earlier.isOpen = true ∧
    earlier.memoryBank banks = bank ∧ write.1.toNat - 0xA000 = offset

instance (banks bank offset : Nat) (write : UInt16 × UInt8) (earlier : Writes) :
    Decidable (Stores banks bank offset write earlier) :=
  inferInstanceAs (Decidable (_ ∧ _))

/-- The byte that was stored last into a place of a bank, and zero before the first
one. -/
def stored (banks bank offset : Nat) : Writes -> UInt8
  | [] => 0
  | write :: earlier =>
      if Stores banks bank offset write earlier then write.2 else stored banks bank offset earlier

section Cons

variable {start stop : Nat} {address : UInt16} {byte : UInt8} {past : Writes}

theorem last?_cons_of_within (within : start <= address.toNat ∧ address.toNat < stop) :
    last? start stop ((address, byte) :: past) = some byte := by
  simp [last?, within]

theorem last?_cons_of_outside (outside : ¬ (start <= address.toNat ∧ address.toNat < stop)) :
    last? start stop ((address, byte) :: past) = last? start stop past := by
  rw [last?, List.find?_cons, decide_eq_false outside]
  rfl

theorem low_cons (outside : ¬ (0x2000 <= address.toNat ∧ address.toNat < 0x4000)) :
    low ((address, byte) :: past) = past.low := by
  rw [low, last?_cons_of_outside outside, low]

theorem high_cons (outside : ¬ (0x4000 <= address.toNat ∧ address.toNat < 0x6000)) :
    high ((address, byte) :: past) = past.high := by
  rw [high, last?_cons_of_outside outside, high]

theorem isAdvanced_cons (outside : ¬ (0x6000 <= address.toNat ∧ address.toNat < 0x8000)) :
    isAdvanced ((address, byte) :: past) = past.isAdvanced := by
  rw [isAdvanced, last?_cons_of_outside outside, isAdvanced]

theorem isOpen_cons (outside : ¬ (0x0000 <= address.toNat ∧ address.toNat < 0x2000)) :
    isOpen ((address, byte) :: past) = past.isOpen := by
  rw [isOpen, last?_cons_of_outside outside, isOpen]

theorem stored_cons {banks bank offset : Nat}
    (outside : address.toNat < 0xA000 ∨ 0xC000 <= address.toNat) :
    stored banks bank offset ((address, byte) :: past) = stored banks bank offset past := by
  refine if_neg fun stores => ?_
  have within := stores.1
  dsimp only at within
  omega

end Cons

end Writes

/-! ## The controller -/

theorem toNat_and_mask (byte : UInt8) {mask : UInt8} {bits : Nat}
    (ones : mask.toNat = 2 ^ bits - 1) : (byte &&& mask).toNat = byte.toNat % 2 ^ bits := by
  rw [UInt8.toNat_and, ones, Nat.and_two_pow_sub_one_eq_mod]

namespace Mbc1

/-- The registers hold what has been written to them. -/
structure Holds (mbc : Mbc1) (past : Writes) : Prop where
  low : mbc.low.toNat = past.low
  high : mbc.high.toNat = past.high
  isOpen : mbc.isOpen = past.isOpen
  isAdvanced : mbc.isAdvanced = past.isAdvanced

theorem holds_initial : initial.Holds [] :=
  ⟨rfl, rfl, rfl, rfl⟩

theorem isOpen_of_byte (byte : UInt8) :
    (byte &&& 0x0F == 0x0A) = (byte.toNat % 16 == 10) := by
  have bits := toNat_and_mask byte (show (0x0F : UInt8).toNat = 2 ^ 4 - 1 from rfl)
  rw [Bool.eq_iff_iff, beq_iff_eq, beq_iff_eq, ← UInt8.toNat_inj, bits]
  rfl

theorem low_of_byte (byte : UInt8) :
    (if byte &&& 0x1F = 0 then 1 else byte &&& 0x1F : UInt8).toNat =
      if byte.toNat % 32 = 0 then 1 else byte.toNat % 32 := by
  have bits : (byte &&& 0x1F).toNat = byte.toNat % 32 :=
    toNat_and_mask byte (show (0x1F : UInt8).toNat = 2 ^ 5 - 1 from rfl)
  have zero : byte &&& 0x1F = 0 ↔ byte.toNat % 32 = 0 := by
    rw [← UInt8.toNat_inj, bits]
    rfl
  by_cases none : byte.toNat % 32 = 0
  · rw [if_pos none, if_pos (zero.mpr none)]
    rfl
  · rw [if_neg none, if_neg (fun same => none (zero.mp same)), bits]

theorem high_of_byte (byte : UInt8) : (byte &&& 0x03).toNat = byte.toNat % 4 :=
  toNat_and_mask byte (show (0x03 : UInt8).toNat = 2 ^ 2 - 1 from rfl)

theorem isAdvanced_of_byte (byte : UInt8) : (byte &&& 0x01 != 0) = (byte.toNat % 2 == 1) := by
  have bits := toNat_and_mask byte (show (0x01 : UInt8).toNat = 2 ^ 1 - 1 from rfl)
  rw [Bool.eq_iff_iff, bne_iff_ne, beq_iff_eq, ne_eq, ← UInt8.toNat_inj, bits]
  change ¬ byte.toNat % 2 = 0 ↔ _
  omega

/-- A write to a quarter of the image range sets one register and leaves the others
as they are. -/
theorem Holds.write {mbc : Mbc1} {past : Writes} (holds : mbc.Holds past) {address : UInt16}
    (below : address.toNat < 0x8000) (byte : UInt8) :
    (mbc.write address byte).Holds ((address, byte) :: past) := by
  simp only [Mbc1.write, UInt16.lt_iff_toNat_lt]
  change Holds (if address.toNat < 0x2000 then _ else if address.toNat < 0x4000 then _ else
    if address.toNat < 0x6000 then _ else _) _
  split
  · refine ⟨holds.low.trans (Writes.low_cons ?_).symm, holds.high.trans (Writes.high_cons ?_).symm,
      ?_, holds.isAdvanced.trans (Writes.isAdvanced_cons ?_).symm⟩
    case refine_3 =>
      rw [Writes.isOpen, Writes.last?_cons_of_within (by omega)]
      exact isOpen_of_byte byte
    all_goals omega
  split
  · refine ⟨?_, holds.high.trans (Writes.high_cons ?_).symm,
      holds.isOpen.trans (Writes.isOpen_cons ?_).symm,
      holds.isAdvanced.trans (Writes.isAdvanced_cons ?_).symm⟩
    case refine_1 =>
      rw [Writes.low, Writes.last?_cons_of_within (by omega)]
      exact low_of_byte byte
    all_goals omega
  split
  · refine ⟨holds.low.trans (Writes.low_cons ?_).symm, ?_,
      holds.isOpen.trans (Writes.isOpen_cons ?_).symm,
      holds.isAdvanced.trans (Writes.isAdvanced_cons ?_).symm⟩
    case refine_2 =>
      rw [Writes.high, Writes.last?_cons_of_within (by omega)]
      exact high_of_byte byte
    all_goals omega
  · refine ⟨holds.low.trans (Writes.low_cons ?_).symm, holds.high.trans (Writes.high_cons ?_).symm,
      holds.isOpen.trans (Writes.isOpen_cons ?_).symm, ?_⟩
    case refine_4 =>
      rw [Writes.isAdvanced, Writes.last?_cons_of_within (by omega)]
      exact isAdvanced_of_byte byte
    all_goals omega

theorem Holds.cons {mbc : Mbc1} {past : Writes} (holds : mbc.Holds past) {address : UInt16}
    (above : 0x8000 <= address.toNat) (byte : UInt8) : mbc.Holds ((address, byte) :: past) where
  low := holds.low.trans (Writes.low_cons (by omega)).symm
  high := holds.high.trans (Writes.high_cons (by omega)).symm
  isOpen := holds.isOpen.trans (Writes.isOpen_cons (by omega)).symm
  isAdvanced := holds.isAdvanced.trans (Writes.isAdvanced_cons (by omega)).symm

section Banks

variable {mbc : Mbc1} {past : Writes} (holds : mbc.Holds past) (banks : Nat)

include holds

theorem Holds.imageOffset (address : UInt16) :
    mbc.imageOffset banks address =
      (if address.toNat < 0x4000 then past.lowerBank banks else past.upperBank banks) * 0x4000 +
        address.toNat % 0x4000 := by
  rw [Mbc1.imageOffset, Mbc1.lowerBank, Mbc1.upperBank, Writes.lowerBank, Writes.upperBank,
    holds.isAdvanced, holds.high, holds.low]
  simp only [UInt16.lt_iff_toNat_lt]
  rfl

theorem Holds.memoryOffset (address : UInt16) :
    mbc.memoryOffset banks address =
      if past.isOpen then some (past.memoryBank banks * 0x2000 + address.toNat % 0x2000)
      else none := by
  rw [Mbc1.memoryOffset, Mbc1.memoryBank, Writes.memoryBank, holds.isOpen, holds.isAdvanced,
    holds.high]
  rfl

end Banks

end Mbc1

namespace Cartridge

/-! ## The cartridge -/

def putAll (cartridge : Cartridge) (past : Writes) : Cartridge :=
  past.foldr (fun write written => written.put write) cartridge

theorem reset_putAll (cartridge : Cartridge) (past : Writes) :
    (cartridge.putAll past).reset = cartridge.reset := by
  induction past with
  | nil => rfl
  | cons write earlier inductionHypothesis =>
      exact (reset_put (cartridge.putAll earlier) write).trans inductionHypothesis

/-- The banks of memory that an image asks for. -/
def askedBanks (image : ByteArray) : Nat :=
  memoryBanksOfCode (imageByte image memoryOffset)

theorem askedBanks_pos (image : ByteArray) : 0 < askedBanks image := by
  rw [askedBanks, memoryBanksOfCode]
  repeat' split
  all_goals decide

/-- A cartridge is in the state that writes have brought it into. -/
structure Follows (image : ByteArray) (past : Writes) (cartridge : Cartridge) : Prop where
  image_eq : cartridge.image = image
  size : cartridge.memory.size = askedBanks image * 0x2000
  controlled : ∃ mbc, cartridge.controller? = some mbc ∧ mbc.Holds past
  memory : ∀ bank offset, bank < askedBanks image -> offset < 0x2000 ->
    cartridge.memory.getD (bank * 0x2000 + offset) openBus =
      past.stored (askedBanks image) bank offset

theorem follows_ofImage {image : ByteArray} {cartridge : Cartridge}
    (accepted : ofImage image = .ok cartridge) (banked : cartridge.kind ≠ .romOnly) :
    Follows image [] cartridge := by
  rcases ofImage_eq_ok_iff.mp accepted with ⟨-, kind, -, rfl⟩
  refine ⟨rfl, Array.size_replicate, ⟨.initial, ?_, Mbc1.holds_initial⟩, ?_⟩
  · cases kind with
    | romOnly => exact absurd rfl banked
    | _ => rfl
  · intro bank offset among within
    have inside : bank * 0x2000 + offset < askedBanks image * 0x2000 := by omega
    change (Array.replicate (askedBanks image * 0x2000) (0 : UInt8)).getD _ _ = 0
    simp [Array.getD, inside]

theorem place_eq_iff {bank other offset place : Nat} (within : offset < 0x2000)
    (inside : place < 0x2000) :
    bank * 0x2000 + offset = other * 0x2000 + place ↔ bank = other ∧ offset = place := by
  omega

theorem Follows.memoryBanks {image : ByteArray} {past : Writes} {cartridge : Cartridge}
    (follows : Follows image past cartridge) : cartridge.memoryBanks = askedBanks image := by
  rw [Cartridge.memoryBanks, follows.size]
  exact Nat.mul_div_cancel _ (by decide)

theorem Follows.offset?_eq {image : ByteArray} {past : Writes} {cartridge : Cartridge}
    (follows : Follows image past cartridge) (address : UInt16) :
    cartridge.offset? address =
      if past.isOpen then
        some (past.memoryBank (askedBanks image) * 0x2000 + address.toNat % 0x2000)
      else none := by
  rcases follows.controlled with ⟨mbc, controller, holds⟩
  rw [offset?, controller, ← follows.memoryBanks]
  exact holds.memoryOffset _ address

theorem memoryBank_lt (past : Writes) {banks : Nat} (positive : 0 < banks) :
    past.memoryBank banks < banks := by
  rw [Writes.memoryBank]
  split
  · exact Nat.mod_lt _ positive
  · exact positive

/-- An open memory takes a byte where its bank is. -/
theorem Follows.writeMemory {image : ByteArray} {past : Writes} {cartridge : Cartridge}
    (follows : Follows image past cartridge) {address : UInt16}
    (inside : 0xA000 <= address.toNat ∧ address.toNat < 0xC000) (byte : UInt8) :
    Follows image ((address, byte) :: past) (cartridge.writeMemory address byte) := by
  rcases follows.controlled with ⟨mbc, controller, holds⟩
  have registers := holds.cons (show 0x8000 <= address.toNat by omega) byte
  have chosen := memoryBank_lt past (askedBanks_pos image)
  rw [Cartridge.writeMemory, follows.offset?_eq]
  cases opened : past.isOpen with
  | false =>
      refine ⟨follows.image_eq, follows.size, ⟨mbc, controller, registers⟩, ?_⟩
      intro bank offset among within
      have passes : ¬ Writes.Stores (askedBanks image) bank offset (address, byte) past := by
        rintro ⟨-, unlocked, -⟩
        rw [opened] at unlocked
        cases unlocked
      rw [Writes.stored, if_neg passes]
      exact follows.memory bank offset among within
  | true =>
      refine ⟨follows.image_eq, ?_, ⟨mbc, controller, registers⟩, ?_⟩
      · exact Array.size_setIfInBounds.trans follows.size
      intro bank offset among within
      have here : address.toNat % 0x2000 < 0x2000 := Nat.mod_lt _ (by decide)
      have place : address.toNat - 0xA000 = address.toNat % 0x2000 := by omega
      have stores : Writes.Stores (askedBanks image) bank offset (address, byte) past ↔
          past.memoryBank (askedBanks image) * 0x2000 + address.toNat % 0x2000 =
            bank * 0x2000 + offset := by
        rw [place_eq_iff here within, Writes.Stores, opened]
        simp only [inside, place, and_self, true_and]
      change (Array.setIfInBounds _ _ _).getD _ _ = _
      rw [Array.getD_eq_getD_getElem?, Array.getElem?_setIfInBounds, Writes.stored]
      by_cases same : Writes.Stores (askedBanks image) bank offset (address, byte) past
      · rw [if_pos (stores.mp same), if_pos same, if_pos (by rw [follows.size]; omega)]
        rfl
      · rw [if_neg (fun equal => same (stores.mpr equal)), if_neg same,
          ← Array.getD_eq_getD_getElem?]
        exact follows.memory bank offset among within

theorem Follows.put {image : ByteArray} {past : Writes} {cartridge : Cartridge}
    (follows : Follows image past cartridge) (write : UInt16 × UInt8) :
    Follows image (write :: past) (cartridge.put write) := by
  rcases write with ⟨address, byte⟩
  rcases follows with ⟨image_eq, size, ⟨mbc, controller, holds⟩, memory⟩
  rw [Cartridge.put]
  split
  · next below =>
    have outside : address.toNat < 0xA000 ∨ 0xC000 <= address.toNat :=
      Or.inl (Nat.lt_of_lt_of_le below (by decide))
    refine ⟨image_eq, size, ⟨mbc.write address byte, ?_, holds.write below byte⟩, ?_⟩
    · rw [writeImage, controller]
      rfl
    · intro bank offset among within
      rw [Writes.stored_cons outside]
      exact memory bank offset among within
  next notImage =>
  have above : 0x8000 <= address.toNat := Nat.not_lt.mp notImage
  split
  · next inside =>
    exact Follows.writeMemory ⟨image_eq, size, ⟨mbc, controller, holds⟩, memory⟩ inside byte
  · next notMemory =>
    refine ⟨image_eq, size, ⟨mbc, controller, holds.cons above byte⟩, ?_⟩
    intro bank offset among within
    rw [Writes.stored_cons (by dsimp only at notMemory; omega)]
    exact memory bank offset among within

theorem Follows.putAll {image : ByteArray} {cartridge : Cartridge}
    (follows : Follows image [] cartridge) (past : Writes) :
    Follows image past (cartridge.putAll past) := by
  induction past with
  | nil => exact follows
  | cons write earlier inductionHypothesis => exact inductionHypothesis.put write

/-! ## What is read -/

/-- What is read from a cartridge is what its image and the writes to it say. -/
structure Banked (image : ByteArray) (past : Writes) (cartridge : Cartridge) : Prop where
  image_eq : cartridge.image = image
  size : cartridge.memory.size = askedBanks image * 0x2000
  lower : ∀ address : UInt16, address.toNat < 0x4000 ->
    ∃ inside : past.lowerBank (image.size / 0x4000) * 0x4000 + address.toNat < image.size,
      cartridge.readImage address =
        image[past.lowerBank (image.size / 0x4000) * 0x4000 + address.toNat]
  upper : ∀ address : UInt16, 0x4000 <= address.toNat -> address.toNat < 0x8000 ->
    ∃ inside : past.upperBank (image.size / 0x4000) * 0x4000 + (address.toNat - 0x4000) <
        image.size,
      cartridge.readImage address =
        image[past.upperBank (image.size / 0x4000) * 0x4000 + (address.toNat - 0x4000)]
  closed : past.isOpen = false -> ∀ address, cartridge.readMemory address = 0xFF
  opened : past.isOpen = true -> ∀ address : UInt16,
    0xA000 <= address.toNat -> address.toNat < 0xC000 ->
      cartridge.readMemory address =
        past.stored (askedBanks image) (past.memoryBank (askedBanks image))
          (address.toNat - 0xA000)
  /-- Whatever the address, the controller finds a place that is there. -/
  inside : ∃ mbc, cartridge.controller? = some mbc ∧ ∀ address,
    mbc.imageOffset cartridge.imageBanks address < cartridge.image.size ∧
      ∀ offset, mbc.memoryOffset cartridge.memoryBanks address = some offset ->
        offset < cartridge.memory.size

theorem lowerBank_lt (past : Writes) {banks : Nat} (positive : 0 < banks) :
    past.lowerBank banks < banks := by
  rw [Writes.lowerBank]
  split
  · exact Nat.mod_lt _ positive
  · exact positive

theorem Follows.banked {image : ByteArray} {past : Writes} {cartridge : Cartridge}
    (follows : Follows image past cartridge) (size : image.size ∈ imageSizes) :
    Banked image past cartridge := by
  rcases follows.controlled with ⟨mbc, controller, holds⟩
  rcases size_of_mem_imageSizes size with ⟨two, whole⟩
  have positive : 0 < image.size / 0x4000 := by omega
  have lower := lowerBank_lt past positive
  have upper : past.upperBank (image.size / 0x4000) < image.size / 0x4000 :=
    Nat.mod_lt _ positive
  have chosen := memoryBank_lt past (askedBanks_pos image)
  have banks : cartridge.imageBanks = image.size / 0x4000 := by
    rw [imageBanks, follows.image_eq]
    rfl
  have read (address : UInt16) : cartridge.readImage address =
      imageByte image (mbc.imageOffset (image.size / 0x4000) address) := by
    rw [readImage, controller, ← banks, ← follows.image_eq]
  refine ⟨follows.image_eq, follows.size, ?_, ?_, ?_, ?_, mbc, controller, ?_⟩
  · intro address below
    have inside : past.lowerBank (image.size / 0x4000) * 0x4000 + address.toNat < image.size := by
      omega
    rw [read, holds.imageOffset, if_pos below, Nat.mod_eq_of_lt below]
    exact ⟨inside, imageByte_of_lt inside⟩
  · intro address above below
    have inside : past.upperBank (image.size / 0x4000) * 0x4000 + (address.toNat - 0x4000) <
        image.size := by
      omega
    have place : address.toNat % 0x4000 = address.toNat - 0x4000 := by omega
    rw [read, holds.imageOffset, if_neg (Nat.not_lt.mpr above), place]
    exact ⟨inside, imageByte_of_lt inside⟩
  · intro closed address
    rw [readMemory, follows.offset?_eq, closed]
    rfl
  · intro opened address above below
    have place : address.toNat % 0x2000 = address.toNat - 0xA000 := by omega
    rw [readMemory, follows.offset?_eq, opened, place]
    exact follows.memory _ _ chosen (by omega)
  · intro address
    constructor
    · rw [holds.imageOffset, banks, follows.image_eq]
      split <;> omega
    · intro offset found
      rw [holds.memoryOffset, follows.memoryBanks] at found
      split at found
      · cases found
        rw [follows.size]
        omega
      · cases found

end Cartridge

/-- The board after some writes of the processor. -/
def Board.writeAll (board : Board) (past : Writes) : Board :=
  past.foldr (fun write written => written.write write.1 write.2) board

theorem Board.cartridge_writeAll (board : Board) (past : Writes) :
    (board.writeAll past).cartridge = board.cartridge.putAll past := by
  induction past with
  | nil => rfl
  | cons write earlier inductionHypothesis =>
      refine ((board.writeAll earlier).cartridge_write write.1 write.2).trans ?_
      rw [inductionHypothesis]
      rfl

namespace Cartridge

/-- Since power came on, a cartridge with a controller shows its image and keeps
what is stored, bank by bank.  On a board it makes no difference what else is
written. -/
theorem banked_of_ofImage {image : ByteArray} {cartridge : Cartridge}
    (accepted : ofImage image = .ok cartridge) (controlled : cartridge.kind ≠ .romOnly)
    (before past : Writes) :
    Banked image past ((cartridge.putAll before).reset.putAll past) ∧
      ∀ board : Board, board.cartridge = (cartridge.putAll before).reset ->
        Banked image past (board.writeAll past).cartridge := by
  have start : (cartridge.putAll before).reset = cartridge := by
    rw [reset_putAll, reset_of_ofImage accepted]
  have banked : Banked image past (cartridge.putAll past) :=
    ((follows_ofImage accepted controlled).putAll past).banked (ofImage_eq_ok_iff.mp accepted).1
  rw [start]
  refine ⟨banked, fun board inserted => ?_⟩
  rw [board.cartridge_writeAll, inserted]
  exact banked

/-- Four banks, each filled with its number, with a controller and four banks of
memory. -/
def numberedImage : ByteArray :=
  imageOf 0x10000 fun offset =>
    if offset = kindOffset ∨ offset = memoryOffset then 3 else UInt8.ofNat (offset / 0x4000)

/-- Open the memory, choose bank 69 of both, store a byte, and close nothing. -/
def choices : Writes :=
  [(0xA010, 0x42), (0x2000, 0x05), (0x4000, 0x02), (0x6000, 0x01), (0x0000, 0x0A)]

theorem imageByte_numberedImage {offset : Nat} (inside : offset < 0x10000) :
    imageByte numberedImage offset =
      if offset = kindOffset ∨ offset = memoryOffset then 3 else UInt8.ofNat (offset / 0x4000) :=
  imageByte_imageOf inside

/-- Bank 69 of four is the second one, and the byte is found again. -/
theorem numberedImage_is_banked :
    ∃ cartridge, ofImage numberedImage = .ok cartridge ∧ cartridge.kind ≠ .romOnly ∧
      ((cartridge.putAll choices).reset.putAll choices).readImage 0x4100 = 1 ∧
      ((cartridge.putAll choices).reset.putAll choices).readMemory 0xA010 = 0x42 := by
  have size : numberedImage.size = 0x10000 := size_imageOf _ _
  have kind : imageByte numberedImage kindOffset = 3 := imageByte_numberedImage (by decide)
  have banks : askedBanks numberedImage = 4 :=
    congrArg memoryBanksOfCode (imageByte_numberedImage (by decide))
  have accepted : ofImage numberedImage = .ok (ofKind numberedImage .mbc1RamBattery) := by
    refine ofImage_eq_ok_iff.mpr ⟨?_, .mbc1RamBattery, ?_, rfl⟩
    · rw [size]
      decide
    · rw [kind]
      rfl
  rcases (banked_of_ofImage accepted (by decide) choices choices).1 with
    ⟨-, -, -, upper, -, opened, -⟩
  refine ⟨_, accepted, by decide, ?_, ?_⟩
  · rcases upper 0x4100 (by decide) (by decide) with ⟨inside, read⟩
    rw [read, ← imageByte_of_lt inside, imageByte_numberedImage (size ▸ inside), size]
    decide
  · rw [opened (by decide) 0xA010 (by decide) (by decide), banks]
    decide

end Cartridge

end Dmg
