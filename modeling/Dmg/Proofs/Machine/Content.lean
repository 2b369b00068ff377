import Dmg.Proofs.Cartridge.Images
import Dmg.Proofs.Machine.History
import Mathlib.Data.List.Sort

/-!
# What is in a machine

The owner of a machine puts images into it and adds breakpoints.  A machine that
has just been turned on is determined by these, together with its configuration,
and the calls that put something in act on them alone.

So it makes no difference in what order a machine is built: whoever puts the same
things in has the same machine.
-/

namespace Dmg

namespace BootImage

def bytes (image : BootImage) : ByteArray :=
  ⟨image.toArray⟩

theorem size_bytes (image : BootImage) : image.bytes.size = 256 :=
  image.size_toArray

theorem ofBytes_bytes (image : BootImage) : ofBytes image.bytes = .ok image := by
  have same : (Vector.ofFn fun index : Fin 256 => Cartridge.imageByte image.bytes index.val) =
      image := by
    apply Vector.ext
    intro index inside
    rw [Vector.getElem_ofFn,
      Cartridge.imageByte_of_lt (Nat.lt_of_lt_of_eq inside image.size_bytes.symm)]
    rfl
  rw [ofBytes, if_pos image.size_bytes, same]

theorem exists_ofBytes_eq_ok_iff {bytes : ByteArray} :
    (∃ image, ofBytes bytes = .ok image) ↔ bytes.size = 256 := by
  rw [ofBytes]
  split
  · next length => simp [length]
  · next length => simp [length]

theorem bytes_injective {first second : BootImage} (same : first.bytes = second.bytes) :
    first = second := by
  have accepted := first.ofBytes_bytes
  rw [same, second.ofBytes_bytes] at accepted
  exact (Except.ok.inj accepted).symm

end BootImage

namespace Machine

/-! ## Breakpoints in rising order -/

theorem mem_insertAddress {address other : UInt16} {addresses : List UInt16} :
    other ∈ insertAddress address addresses ↔ other = address ∨ other ∈ addresses := by
  induction addresses with
  | nil => simp [insertAddress]
  | cons first rest inductionHypothesis =>
      rw [insertAddress]
      split
      · exact List.mem_cons
      · rw [List.mem_cons, inductionHypothesis, List.mem_cons, or_left_comm]

theorem pairwise_insertAddress {address : UInt16} {addresses : List UInt16}
    (rising : addresses.Pairwise (· < ·)) (absent : address ∉ addresses) :
    (insertAddress address addresses).Pairwise (· < ·) := by
  induction addresses with
  | nil => exact List.pairwise_singleton _ address
  | cons first rest inductionHypothesis =>
      rcases List.pairwise_cons.mp rising with ⟨above, later⟩
      rw [insertAddress]
      split
      · next below =>
        apply List.pairwise_cons.mpr
        refine ⟨?_, rising⟩
        intro other member
        rcases List.mem_cons.mp member with rfl | member
        · exact below
        · exact UInt16.lt_trans below (above other member)
      · next notBelow =>
        have different : first ≠ address := fun same => absent (same ▸ List.mem_cons_self)
        have beyond : first < address :=
          UInt16.lt_of_le_of_ne (UInt16.not_lt.mp notBelow) different
        have missing : address ∉ rest := fun member => absent (List.mem_cons_of_mem _ member)
        apply List.pairwise_cons.mpr
        refine ⟨?_, inductionHypothesis later missing⟩
        intro other member
        rcases mem_insertAddress.mp member with rfl | member
        · exact beyond
        · exact above other member

/-- A machine that has just been turned on. -/
def turnedOn (config : Config) (board : Board) (breakpoints : List UInt16) : Machine where
  core := ⟨startingCpu board, board⟩
  config := config
  breakpoints := breakpoints
  pausedAt := none
  fault := none

/-- A machine is reset to one that has just been turned on. -/
theorem reset_eq_turnedOn (machine : Machine) :
    machine.reset =
      turnedOn machine.config
        (.start machine.board.video.shades machine.board.cartridge.reset machine.board.bootImage)
        machine.breakpoints := by
  rw [reset_eq, Board.reset_eq]
  rfl

end Machine

namespace Call

/-- Whether a call is about images or breakpoints. -/
def isInstalling : Call -> Bool
  | .addBreakpoint _ | .removeBreakpoint _ | .load _ | .loadBoot _ => true
  | _ => false

end Call

/-! ## What is in a machine -/

/-- What an owner has put into a machine.  This and the configuration are all that is left
when the power goes off. -/
@[ext] structure Content where
  image? : Option ByteArray
  bootImage? : Option BootImage
  /-- Addresses at which a frame is interrupted, in rising order. -/
  breakpoints : List UInt16

namespace Content

def empty : Content := ⟨none, none, []⟩

/-- The cartridge of the image when power comes on. -/
def cartridge (content : Content) : Cartridge :=
  match content.image? with
  | none => .absent
  | some image =>
      match Cartridge.ofImage image with
      | .ok cartridge => cartridge
      | .error _ => .absent

/-- A machine with this content that has just been turned on. -/
def started (content : Content) (config : Config) : Machine :=
  .turnedOn config (.start config.shades content.cartridge content.bootImage?) content.breakpoints

def withImage (content : Content) (image : ByteArray) : Content :=
  { content with image? := some image }

/-- The content with another start-up image. -/
def withBootImage (content : Content) (image : BootImage) : Content :=
  { content with bootImage? := some image }

/-- What a call puts in or takes out. -/
def install (content : Content) : Call -> Content
  | .addBreakpoint address =>
      if content.breakpoints.contains address then content
      else { content with breakpoints := Machine.insertAddress address content.breakpoints }
  | .removeBreakpoint address =>
      { content with breakpoints := content.breakpoints.erase address }
  | .load image =>
      match Cartridge.ofImage image with
      | .ok _ => content.withImage image
      | .error _ => content
  | .loadBoot image =>
      match BootImage.ofBytes image with
      | .ok boot => content.withBootImage boot
      | .error _ => content
  | _ => content

/-- A content that a machine can have. -/
structure Genuine (content : Content) : Prop where
  accepted : ∀ image, content.image? = some image ->
    ∃ cartridge, Cartridge.ofImage image = .ok cartridge
  rising : content.breakpoints.Pairwise (· < ·)

theorem genuine_empty : empty.Genuine where
  accepted _ present := nomatch present
  rising := List.Pairwise.nil

theorem cartridge_of_accepted {content : Content} {image : ByteArray} {cartridge : Cartridge}
    (present : content.image? = some image) (accepted : Cartridge.ofImage image = .ok cartridge) :
    content.cartridge = cartridge := by
  simp only [Content.cartridge, present, accepted]

theorem reset_cartridge (content : Content) : content.cartridge.reset = content.cartridge := by
  rw [cartridge]
  split
  · exact Cartridge.reset_absent
  · split
    · next accepted => exact Cartridge.reset_of_ofImage accepted
    · exact Cartridge.reset_absent

theorem install_load {content : Content} {image : ByteArray} {cartridge : Cartridge}
    (accepted : Cartridge.ofImage image = .ok cartridge) :
    content.install (.load image) = content.withImage image := by
  rw [install, accepted]

theorem install_loadBoot (content : Content) (image : BootImage) :
    content.install (.loadBoot image.bytes) = content.withBootImage image := by
  rw [install, BootImage.ofBytes_bytes]

theorem started_of_cartridge {content : Content} (config : Config) {fresh : Cartridge}
    (same : fresh = content.cartridge) :
    Machine.turnedOn config (.start config.shades fresh content.bootImage?) content.breakpoints =
      content.started config := by
  rw [same, started]

theorem reset_started (content : Content) (config : Config) :
    (content.started config).reset = content.started config :=
  (content.started config).reset_eq_turnedOn.trans
    (started_of_cartridge config content.reset_cartridge)

/-- A machine that has just been turned on applies a call about images or
breakpoints by being one with another content. -/
theorem apply_started (content : Content) (config : Config) {call : Call}
    (installing : call.isInstalling = true) :
    (content.started config).apply call = (content.install call).started config := by
  cases call with
  | addBreakpoint address =>
      have before : (content.started config).breakpoints.contains address =
          content.breakpoints.contains address := rfl
      rw [Machine.apply, Machine.addBreakpoint, install, before]
      split <;> rfl
  | removeBreakpoint address => rfl
  | load image =>
      rw [Machine.apply, Machine.load, install]
      cases accepted : Cartridge.ofImage image with
      | error refusal => rfl
      | ok cartridge =>
          have same : cartridge.reset = (content.withImage image).cartridge := by
            rw [Cartridge.reset_of_ofImage accepted, cartridge_of_accepted rfl accepted]
          exact (Machine.reset_eq_turnedOn _).trans (started_of_cartridge config same)
  | loadBoot image =>
      rw [Machine.apply, Machine.loadBoot, install]
      cases BootImage.ofBytes image with
      | error refusal => rfl
      | ok boot =>
          have same : content.cartridge.reset = (content.withBootImage boot).cartridge :=
            content.reset_cartridge
          exact (Machine.reset_eq_turnedOn _).trans (started_of_cartridge config same)
  | _ => cases installing

theorem foldl_apply_started (content : Content) (config : Config) (calls : List Call)
    (installing : ∀ call ∈ calls, call.isInstalling = true) :
    calls.foldl Machine.apply (content.started config) =
      (calls.foldl install content).started config := by
  induction calls generalizing content with
  | nil => rfl
  | cons call calls inductionHypothesis =>
      rcases List.forall_mem_cons.mp installing with ⟨first, others⟩
      rw [List.foldl_cons, apply_started content config first, inductionHypothesis _ others]
      rfl

theorem Genuine.install {content : Content} (genuine : content.Genuine) (call : Call) :
    (content.install call).Genuine := by
  cases call with
  | addBreakpoint address =>
      rw [Content.install]
      split
      · exact genuine
      · next missing =>
        refine ⟨genuine.accepted, Machine.pairwise_insertAddress genuine.rising ?_⟩
        exact fun member => missing (List.contains_iff_mem.mpr member)
  | removeBreakpoint address =>
      exact ⟨genuine.accepted, genuine.rising.sublist List.erase_sublist⟩
  | load image =>
      rw [Content.install]
      split
      · next cartridge accepted =>
        refine ⟨?_, genuine.rising⟩
        intro other present
        cases present
        exact ⟨cartridge, accepted⟩
      · exact genuine
  | loadBoot image =>
      rw [Content.install]
      split
      · exact ⟨genuine.accepted, genuine.rising⟩
      · exact genuine
  | _ => exact genuine

theorem Genuine.foldl_install {content : Content} (genuine : content.Genuine) (calls : List Call) :
    (calls.foldl Content.install content).Genuine := by
  induction calls generalizing content with
  | nil => exact genuine
  | cons call calls inductionHypothesis => exact inductionHypothesis (genuine.install call)

end Content

namespace Machine

/-- What the owner of a machine has put into it. -/
def content (machine : Machine) : Content where
  image? := if machine.board.cartridge.isLoaded then some machine.board.cartridge.image else none
  bootImage? := machine.board.bootImage
  breakpoints := machine.breakpoints

end Machine

theorem Content.Genuine.content_started {content : Content} (genuine : content.Genuine)
    (config : Config) : (content.started config).content = content := by
  have image : (content.started config).content.image? = content.image? := by
    change (if content.cartridge.isLoaded then some content.cartridge.image else none) = _
    cases present : content.image? with
    | none =>
        have vacant : content.cartridge = .absent := by
          rw [Content.cartridge, present]
        rw [vacant]
        rfl
    | some image =>
        rcases genuine.accepted image present with ⟨cartridge, accepted⟩
        rw [cartridge_of_accepted present accepted, Cartridge.isLoaded_of_ofImage accepted,
          Cartridge.image_of_ofImage accepted]
        rfl
  exact Content.ext image rfl rfl

/-! ## The calls that belong to a content -/

namespace Content

/-- The calls that put everything in. -/
def calls (content : Content) : List Call :=
  (content.image?.map .load).toList ++
    (content.bootImage?.map fun image => .loadBoot image.bytes).toList ++
    content.breakpoints.map .addBreakpoint

/-- Whether a call puts something in that is there. -/
def Has (content : Content) : Call -> Prop
  | .load image => content.image? = some image
  | .loadBoot bytes => ∃ image, content.bootImage? = some image ∧ image.bytes = bytes
  | .addBreakpoint address => address ∈ content.breakpoints
  | _ => False

theorem mem_calls_iff {content : Content} {call : Call} :
    call ∈ content.calls ↔ content.Has call := by
  cases call <;> simp [calls, Has]

theorem isInstalling_of_has {content : Content} {call : Call} (has : content.Has call) :
    call.isInstalling = true := by
  cases call with
  | load image => rfl
  | loadBoot image => rfl
  | addBreakpoint address => rfl
  | _ => cases has

/-- Contents are the same if the same calls put something in that is there. -/
theorem Genuine.eq_of_has_iff {first second : Content} (genuineFirst : first.Genuine)
    (genuineSecond : second.Genuine) (same : ∀ call, first.Has call ↔ second.Has call) :
    first = second := by
  apply Content.ext
  · apply Option.ext
    intro image
    exact same (.load image)
  · apply Option.ext
    intro image
    have agree := same (.loadBoot image.bytes)
    constructor
    · intro present
      rcases agree.mp ⟨image, present, rfl⟩ with ⟨other, found, bytes⟩
      rw [found, BootImage.bytes_injective bytes]
    · intro present
      rcases agree.mpr ⟨image, present, rfl⟩ with ⟨other, found, bytes⟩
      rw [found, BootImage.bytes_injective bytes]
  · exact genuineFirst.rising.eq_of_mem_iff genuineSecond.rising
      (fun address => same (.addBreakpoint address))

theorem mem_breakpoints_install_iff {content : Content} {address other : UInt16} :
    other ∈ (content.install (.addBreakpoint address)).breakpoints ↔
      other = address ∨ other ∈ content.breakpoints := by
  rw [install]
  split
  · next known =>
    constructor
    · exact Or.inr
    · rintro (rfl | member)
      · exact List.contains_iff_mem.mp known
      · exact member
  · exact Machine.mem_insertAddress

/-- Putting in what belongs to another content adds this and removes nothing of
what belongs there already. -/
theorem has_install_iff {target content : Content} (genuine : target.Genuine)
    (within : ∀ call, content.Has call -> target.Has call) {first : Call}
    (belongs : target.Has first) (call : Call) :
    (content.install first).Has call ↔ call = first ∨ content.Has call := by
  cases first with
  | load image =>
      rcases genuine.accepted image belongs with ⟨cartridge, accepted⟩
      rw [install_load accepted]
      cases call with
      | load other =>
          constructor
          · intro present
            exact Or.inl (congrArg Call.load (Option.some.inj present).symm)
          · rintro (same | present)
            · exact congrArg some (Call.load.inj same).symm
            · exact belongs.symm.trans (within (.load other) present)
      | _ => simp [Has, withImage]
  | loadBoot bytes =>
      rcases belongs with ⟨image, belongs, rfl⟩
      rw [install_loadBoot]
      cases call with
      | loadBoot other =>
          constructor
          · rintro ⟨found, present, rfl⟩
            exact Or.inl (congrArg (fun image => Call.loadBoot image.bytes)
              (Option.some.inj present).symm)
          · rintro (same | present)
            · exact ⟨image, rfl, (Call.loadBoot.inj same).symm⟩
            · rcases within (.loadBoot other) present with ⟨found, there, rfl⟩
              have one : image = found := Option.some.inj (belongs.symm.trans there)
              exact ⟨image, rfl, congrArg BootImage.bytes one⟩
      | _ => simp [Has, withBootImage]
  | addBreakpoint address =>
      cases call with
      | addBreakpoint other =>
          rw [Call.addBreakpoint.injEq]
          exact mem_breakpoints_install_iff
      | _ =>
          rw [install]
          split <;> simp [Has]
  | _ => cases belongs

theorem has_foldl_install_iff {target content : Content} (genuine : target.Genuine)
    (within : ∀ call, content.Has call -> target.Has call) {calls : List Call}
    (belong : ∀ call ∈ calls, target.Has call) (call : Call) :
    (calls.foldl install content).Has call ↔ call ∈ calls ∨ content.Has call := by
  induction calls generalizing content with
  | nil => simp
  | cons first calls inductionHypothesis =>
      rcases List.forall_mem_cons.mp belong with ⟨belongs, others⟩
      have added := has_install_iff genuine within belongs
      have still : ∀ call, (content.install first).Has call -> target.Has call := by
        intro call has
        rcases (added call).mp has with rfl | before
        · exact belongs
        · exact within call before
      rw [List.foldl_cons, inductionHypothesis still others, added, List.mem_cons, or_left_comm,
        or_assoc]

/-- Whoever puts in what belongs to a content, in whatever order and however
often, has this content. -/
theorem Genuine.foldl_install_eq {content : Content} (genuine : content.Genuine)
    {calls : List Call} (same : ∀ call, call ∈ calls ↔ call ∈ content.calls) :
    calls.foldl Content.install .empty = content := by
  have belong : ∀ call ∈ calls, content.Has call := by
    intro call member
    exact mem_calls_iff.mp ((same call).mp member)
  have nothing : ∀ call, ¬ Content.empty.Has call := by
    intro call has
    cases call <;> simp [Has, empty] at has
  apply (genuine_empty.foldl_install calls).eq_of_has_iff genuine
  intro call
  rw [has_foldl_install_iff genuine (fun call has => absurd has (nothing call)) belong, same,
    mem_calls_iff]
  exact or_iff_left (nothing call)

end Content

end Dmg
