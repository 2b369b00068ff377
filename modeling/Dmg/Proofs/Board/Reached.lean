import Dmg.Proofs.Machine.Reset
import Dmg.Proofs.Timer
import Dmg.Proofs.Cartridge.Banking
import Dmg.Proofs.Video.Place

/-!
# The states of a board

A board that has just been built is changed by the processor's writes, by time, by
buttons, and by images that are put in.  Whatever has happened to it, its
cartridge is made of whole banks, its video unit is in a state that the unit
reaches by itself, and no counter of the timer carries a whole period.

The board of a machine with a history is such a board.
-/

namespace Dmg

namespace Board

inductive Action where
  | write (address : UInt16) (byte : UInt8)
  | advance (timing : Timing)
  | setButton (button : Button) (held : Bool)
  | insert (image : ByteArray)
  | insertBoot (image : ByteArray)
  | reset

/-- The board after something has happened.  An image that is refused leaves it as
it is. -/
def act (board : Board) : Action -> Board
  | .write address byte => board.write address byte
  | .advance timing => board.advance timing
  | .setButton button held => board.setButton button held
  | .insert image =>
      match Cartridge.ofImage image with
      | .ok cartridge => board.insertCartridge cartridge
      | .error _ => board
  | .insertBoot image =>
      match BootImage.ofBytes image with
      | .ok boot => board.insertBoot boot
      | .error _ => board
  | .reset => board.reset

/-- The states that a board can be in: it was empty once, and whatever happened to it
since then, by programs and by its owner, is one of the actions above. -/
def Reached (board : Board) : Prop :=
  ∃ shades actions, List.foldl act (empty shades) actions = board

theorem reached_empty (shades : Shades) : (empty shades).Reached :=
  ⟨shades, [], rfl⟩

theorem Reached.act {board : Board} (reached : board.Reached) (action : Action) :
    (board.act action).Reached := by
  rcases reached with ⟨shades, actions, rfl⟩
  exact ⟨shades, actions ++ [action], List.foldl_concat _ _ _ _⟩

/-- What holds of an empty board and outlasts whatever can happen holds of every
board. -/
theorem Reached.induct {motive : Board -> Prop} (empty : ∀ shades, motive (empty shades))
    (act : ∀ board action, motive board -> motive (board.act action)) {board : Board}
    (reached : board.Reached) : motive board := by
  rcases reached with ⟨shades, actions, rfl⟩
  have kept (start : Board) (holds : motive start) :
      motive (List.foldl Board.act start actions) := by
    induction actions generalizing start with
    | nil => exact holds
    | cons action actions inductionHypothesis =>
        exact inductionHypothesis (start.act action) (act start action holds)
  exact kept (Board.empty shades) (empty shades)

end Board

/-! ## The cartridge -/

namespace Cartridge

/-- A cartridge is made of whole banks.  A slot without an image has no
controller. -/
structure Whole (cartridge : Cartridge) : Prop where
  memory : ∃ banks, 0 < banks ∧ cartridge.memory.size = banks * 0x2000
  image : cartridge.image.size ∈ imageSizes ∨
    cartridge.image.size = 0 ∧ cartridge.controller? = none

theorem whole_absent : absent.Whole where
  memory := ⟨1, by decide, Array.size_replicate⟩
  image := Or.inr ⟨rfl, rfl⟩

theorem Whole.of_same {cartridge changed : Cartridge} (whole : cartridge.Whole)
    (memory : changed.memory.size = cartridge.memory.size) (image : changed.image = cartridge.image)
    (controller : cartridge.controller? = none -> changed.controller? = none) : changed.Whole where
  memory := by
    rw [memory]
    exact whole.memory
  image := by
    rw [image]
    exact whole.image.imp id (And.imp id controller)

theorem Whole.reset {cartridge : Cartridge} (whole : cartridge.Whole) : cartridge.reset.Whole := by
  refine whole.of_same Array.size_replicate rfl fun none => ?_
  rw [Cartridge.reset, none]
  rfl

theorem Whole.writeMemory {cartridge : Cartridge} (whole : cartridge.Whole) (address : UInt16)
    (byte : UInt8) : (cartridge.writeMemory address byte).Whole := by
  rw [Cartridge.writeMemory]
  split
  · exact whole
  · exact whole.of_same Array.size_setIfInBounds rfl id

theorem Whole.put {cartridge : Cartridge} (whole : cartridge.Whole) (write : UInt16 × UInt8) :
    (cartridge.put write).Whole := by
  rw [Cartridge.put]
  split
  · refine whole.of_same rfl rfl fun none => ?_
    rw [writeImage, none]
    rfl
  · split
    · exact whole.writeMemory write.1 write.2
    · exact whole

theorem whole_of_ofImage {image : ByteArray} {cartridge : Cartridge}
    (accepted : ofImage image = .ok cartridge) : cartridge.Whole := by
  rcases ofImage_eq_ok_iff.mp accepted with ⟨size, kind, -, rfl⟩
  exact ⟨⟨_, askedBanks_pos image, Array.size_replicate⟩, Or.inl size⟩

/-- A controller finds a place of the image for every address of the image
range. -/
theorem Whole.imageOffset_lt {cartridge : Cartridge} (whole : cartridge.Whole) {mbc : Mbc1}
    (controlled : cartridge.controller? = some mbc) (address : UInt16) :
    mbc.imageOffset cartridge.imageBanks address < cartridge.image.size := by
  have size : cartridge.image.size ∈ imageSizes := by
    rcases whole.image with size | ⟨-, none⟩
    · exact size
    · rw [controlled] at none
      cases none
  rcases size_of_mem_imageSizes size with ⟨two, banks⟩
  have within : address.toNat % 0x4000 < 0x4000 := Nat.mod_lt _ (by decide)
  have lower : mbc.lowerBank cartridge.imageBanks < cartridge.image.size / 0x4000 := by
    rw [Mbc1.lowerBank]
    split
    · exact Nat.mod_lt _ (show 0 < cartridge.image.size / 0x4000 by omega)
    · omega
  have upper : mbc.upperBank cartridge.imageBanks < cartridge.image.size / 0x4000 :=
    Nat.mod_lt _ (show 0 < cartridge.image.size / 0x4000 by omega)
  rw [Mbc1.imageOffset]
  change (if address < 0x4000 then _ else _) * 0x4000 + address.toNat % 0x4000 < _
  split <;> omega

/-- An address that leads to the memory leads to a place of it. -/
theorem Whole.offset_lt {cartridge : Cartridge} (whole : cartridge.Whole) {address : UInt16}
    {offset : Nat} (found : cartridge.offset? address = some offset) :
    offset < cartridge.memory.size := by
  rcases whole.memory with ⟨banks, positive, size⟩
  have count : cartridge.memoryBanks = banks := by
    rw [memoryBanks, size]
    exact Nat.mul_div_cancel banks (by decide)
  have within : address.toNat % 0x2000 < 0x2000 := Nat.mod_lt _ (by decide)
  rw [offset?, count] at found
  split at found
  · cases found
    change address.toNat % 0x2000 < _
    omega
  · next mbc controlled =>
    rw [Mbc1.memoryOffset] at found
    split at found
    · cases found
      have bank : mbc.memoryBank banks < banks := by
        rw [Mbc1.memoryBank]
        split
        · exact Nat.mod_lt _ positive
        · exact positive
      change mbc.memoryBank banks * 0x2000 + address.toNat % 0x2000 < _
      omega
    · cases found

/-- An image is at least as long as the range in which it is seen. -/
theorem Whole.long_of_isLoaded {cartridge : Cartridge} (whole : cartridge.Whole)
    (loaded : cartridge.isLoaded = true) : 0x8000 <= cartridge.image.size := by
  rcases whole.image with listed | ⟨blank, -⟩
  · rcases size_of_mem_imageSizes listed with ⟨two, whole⟩
    omega
  · exact absurd blank (bne_iff_ne.mp loaded)

theorem Whole.isLoaded {cartridge : Cartridge} (whole : cartridge.Whole) {mbc : Mbc1}
    (controlled : cartridge.controller? = some mbc) : cartridge.isLoaded = true := by
  have within := whole.imageOffset_lt controlled 0
  exact bne_iff_ne.mpr (Nat.ne_of_gt (Nat.zero_lt_of_lt within))

theorem Whole.imageBanks_pos {cartridge : Cartridge} (whole : cartridge.Whole) {mbc : Mbc1}
    (controlled : cartridge.controller? = some mbc) : 0 < cartridge.imageBanks := by
  have long := whole.long_of_isLoaded (whole.isLoaded controlled)
  exact Nat.div_pos (Nat.le_trans (by decide) long) (by decide)

theorem Whole.memoryBanks_pos {cartridge : Cartridge} (whole : cartridge.Whole) :
    0 < cartridge.memoryBanks := by
  rcases whole.memory with ⟨banks, positive, size⟩
  rw [memoryBanks, size]
  change 0 < banks * 0x2000 / 0x2000
  rwa [Nat.mul_div_cancel banks (by decide)]

end Cartridge

/-! ## The video unit -/

namespace Video

theorem reached_initial (shades : Shades) : (initial shades).Reached :=
  ⟨shades, [], rfl⟩

theorem Reached.actAll {video : Video} (reached : video.Reached) (actions : List Action) :
    (video.actAll actions).Reached := by
  rcases reached with ⟨shades, earlier, rfl⟩
  exact ⟨shades, earlier ++ actions, List.foldl_append⟩

theorem Reached.act {video : Video} (reached : video.Reached) (action : Action) :
    (video.act action).Reached :=
  reached.actAll [action]

theorem Reached.apply {video : Video} (reached : video.Reached) (command : Command) :
    (video.apply command).Reached :=
  reached.act (.command command)

end Video

/-! ## The timer -/

namespace Timer

/-- No counter carries cycles that make up a count at its slowest rate. -/
structure Carries (timer : Timer) : Prop where
  div : timer.divClock < divPeriod
  tima : timer.timaClock < 64

theorem carries_initial : initial.Carries :=
  ⟨by decide, by decide⟩

theorem period_le (timer : Timer) : timer.period <= 64 := by
  rw [period]
  split
  · decide
  · split
    · decide
    · split <;> decide

theorem Carries.step {timer : Timer} (carries : timer.Carries) (cycles : Nat) :
    (timer.step cycles).1.Carries := by
  have div : (timer.divClock + cycles) % divPeriod < divPeriod := Nat.mod_lt _ (by decide)
  cases enabled : timer.isEnabled with
  | false =>
      rw [step_of_disabled enabled]
      exact ⟨div, carries.tima⟩
  | true =>
      rw [step_of_enabled enabled]
      exact ⟨div, Nat.lt_of_lt_of_le (Nat.mod_lt _ timer.period_pos) timer.period_le⟩

theorem Carries.write {timer : Timer} (carries : timer.Carries) (register : TimerRegister)
    (byte : UInt8) : (timer.write register byte).Carries := by
  cases register with
  | div => exact ⟨(by decide : 0 < divPeriod), carries.tima⟩
  | tima => exact ⟨carries.div, carries.tima⟩
  | tma => exact ⟨carries.div, carries.tima⟩
  | tac =>
      rw [Timer.write]
      dsimp only
      split
      · exact ⟨carries.div, (by decide : 0 < 64)⟩
      · exact ⟨carries.div, carries.tima⟩

end Timer

namespace Board

/-! ## The parts of a board -/

/-- The parts of a board are in states that they can be in. -/
structure Sound (board : Board) : Prop where
  cartridge : board.cartridge.Whole
  video : board.video.Reached
  timer : board.timer.Carries

theorem sound_start (shades : Shades) {cartridge : Cartridge} (whole : cartridge.Whole)
    (bootImage : Option BootImage) : (start shades cartridge bootImage).Sound :=
  ⟨whole, Video.reached_initial shades, Timer.carries_initial⟩

/-- A transfer does to the video unit what stores into sprite memory do. -/
theorem exists_video_transfer_eq (board : Board) (page : UInt8) :
    ∃ actions, (board.transfer page).video = board.video.actAll actions := by
  have copied (offsets : List SpriteOffset) (board : Board) :
      ∃ actions, (offsets.foldl (transferByte page) board).video = board.video.actAll actions := by
    induction offsets generalizing board with
    | nil => exact ⟨[], rfl⟩
    | cons offset offsets inductionHypothesis =>
        rcases inductionHypothesis (transferByte page board offset) with ⟨actions, same⟩
        exact ⟨.command (.writeOam offset _) :: actions, same⟩
  exact copied _ { board with transferPage := page }

theorem Sound.writeLocation {board : Board} (sound : board.Sound) (location : Location)
    (byte : UInt8) (whole : (board.writeLocation location byte).cartridge.Whole) :
    (board.writeLocation location byte).Sound := by
  refine ⟨whole, ?_, ?_⟩
  · cases location with
    | videoMemory offset => exact sound.video.apply (.writeVram offset byte)
    | spriteMemory offset => exact sound.video.apply (.writeOam offset byte)
    | video register => exact sound.video.apply (.writeRegister register byte)
    | transfer =>
        rcases board.exists_video_transfer_eq byte with ⟨actions, same⟩
        rw [Board.writeLocation, same]
        exact sound.video.actAll actions
    | _ => exact sound.video
  · cases location with
    | timer register => exact sound.timer.write register byte
    | transfer =>
        rcases board.exists_transfer_eq byte with ⟨oam, same⟩
        rw [Board.writeLocation, same]
        exact sound.timer
    | _ => exact sound.timer

theorem Sound.write {board : Board} (sound : board.Sound) (address : UInt16) (byte : UInt8) :
    (board.write address byte).Sound := by
  apply sound.writeLocation
  rw [← Board.write, board.cartridge_write]
  exact sound.cartridge.put (address, byte)

theorem Sound.act {board : Board} (sound : board.Sound) (action : Action) :
    (board.act action).Sound := by
  cases action with
  | write address byte => exact sound.write address byte
  | advance timing =>
      exact ⟨sound.cartridge, sound.video.act (.step timing.clocks),
        sound.timer.step timing.machine⟩
  | setButton button held => exact ⟨sound.cartridge, sound.video, sound.timer⟩
  | insert image =>
      rw [Board.act]
      split
      · next accepted => exact ⟨Cartridge.whole_of_ofImage accepted, sound.video, sound.timer⟩
      · exact sound
  | insertBoot image =>
      rw [Board.act]
      split
      · exact ⟨sound.cartridge, sound.video, sound.timer⟩
      · exact sound
  | reset =>
      rw [Board.act, reset_eq]
      exact sound_start board.video.shades sound.cartridge.reset board.bootImage

theorem Reached.sound {board : Board} (reached : board.Reached) : board.Sound :=
  reached.induct (fun shades => sound_start shades Cartridge.whole_absent none)
    (fun _ action sound => sound.act action)

/-- The processor leads from one state that a board can be in to another. -/
def reachedInvariant : BusInvariant Board where
  holds := Reached
  read_holds _ _ reached := reached
  write_holds _ address byte reached := reached.act (.write address byte)

end Board

/-! ## The board of a machine -/

namespace Machine

theorem board_step_reached {machine : Machine} (reached : machine.board.Reached) :
    machine.step.2.board.Reached := by
  have executed : machine.core.instruction.2.memory.Reached :=
    Wired.instruction_holds Board.reachedInvariant
      (fun _ timing before => before.act (.advance timing)) reached
  rw [step]
  split
  · exact reached
  · split <;> next same =>
      rw [same] at executed
      exact executed

theorem board_afterSteps_reached {machine : Machine} (reached : machine.board.Reached)
    (count : Nat) : (machine.afterSteps count).board.Reached := by
  induction count generalizing machine with
  | zero => exact reached
  | succ count inductionHypothesis => exact inductionHypothesis (board_step_reached reached)

theorem board_runFrame_reached {machine : Machine} (reached : machine.board.Reached) :
    machine.runFrame.2.board.Reached := by
  have unpaused : machine.unpaused.board.Reached := reached
  change machine.runFrame.2.unpaused.board.Reached
  rw [machine.frameCalls_eq.2]
  exact board_afterSteps_reached unpaused _

theorem board_apply_reached {machine : Machine} (reached : machine.board.Reached) (call : Call) :
    (machine.apply call).board.Reached := by
  cases call with
  | runFrame => exact board_runFrame_reached reached
  | step => exact board_step_reached reached
  | addBreakpoint address =>
      rw [apply, addBreakpoint_eq_steered]
      exact reached
  | removeBreakpoint address => exact reached
  | setButton button held => exact reached.act (.setButton button held)
  | resume => exact reached
  | reset => exact reached.act .reset
  | load image =>
      have inserted := (reached.act (.insert image)).act .reset
      rw [Board.act] at inserted
      rw [apply, load]
      cases accepted : Cartridge.ofImage image with
      | error refusal => exact reached
      | ok cartridge =>
          rw [accepted] at inserted
          exact inserted
  | loadBoot image =>
      have inserted := (reached.act (.insertBoot image)).act .reset
      rw [Board.act] at inserted
      rw [apply, loadBoot]
      cases accepted : BootImage.ofBytes image with
      | error refusal => exact reached
      | ok boot =>
          rw [accepted] at inserted
          exact inserted

theorem board_act_reached {machine : Machine} (reached : machine.board.Reached)
    (action : HostAction) : (machine.act action).board.Reached := by
  cases action with
  | call call => exact board_apply_reached reached call
  | setCpu cpu => exact reached

/-- Whatever its owner and its program have done, the board of a machine is in a
state that boards can be in. -/
theorem Reached.board {machine : Machine} (reached : machine.Reached) : machine.board.Reached := by
  rcases reached with ⟨config, actions, rfl⟩
  have kept (start : Machine) (before : start.board.Reached) :
      (actions.foldl act start).board.Reached := by
    induction actions generalizing start with
    | nil => exact before
    | cons action actions inductionHypothesis =>
        exact inductionHypothesis (start.act action) (board_act_reached before action)
  exact kept (new config) (Board.reached_empty config.shades)

end Machine

end Dmg
