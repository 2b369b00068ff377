import Dmg.Proofs.Console.Machine

/-!
# Nothing is left behind

A console that is turned off and on is the console that its owner would have by
building a new one, putting the same images in and adding the same breakpoints.  This
is so in every field, also in those that nothing shows.

What a console keeps follows from its machine, but for the indices of a line and the
second latch, and a reset clears these two.  So the console that is reset is the one
that belongs to the machine that is reset, and this is known.
-/

namespace Dmg

/-- What can happen to a console from outside.  Its owner can put the processor into
another state together with its second latch. -/
inductive ConsoleAction where
  | call (call : Call)
  | setCpu (cpu : Cpu) (enableDelayed : Bool)

namespace ConsoleAction

/-- What happens to the machine that can be seen. -/
def seen : ConsoleAction -> HostAction
  | call asked => .call asked
  | setCpu cpu _ => .setCpu cpu

end ConsoleAction

namespace Console

def act (console : Console) : ConsoleAction -> Console
  | .call call => console.apply call
  | .setCpu cpu enableDelayed => { console with core := ⟨⟨cpu, console.circuit⟩, enableDelayed⟩ }

/-- A console with a history: it was new once, and then some actions followed. -/
def Reached (console : Console) : Prop :=
  ∃ (config : Config) (actions : List ConsoleAction), actions.foldl act (new config) = console

/-! ## What a call does to what can be seen -/

theorem addBreakpoint_ofMachine (machine : Machine) (indices : IndexLine) (enableDelayed : Bool)
    (address : UInt16) :
    (ofMachine machine indices enableDelayed).addBreakpoint address =
      ofMachine (machine.addBreakpoint address).2 indices enableDelayed := by
  change (if machine.breakpoints.contains address then _ else _) = _
  rw [Machine.addBreakpoint]
  split <;> rfl

section Images

variable {machine : Machine} (reached : machine.board.Reached) (indices : IndexLine)
  (enableDelayed : Bool)
include reached

theorem reset_ofMachine :
    (ofMachine machine indices enableDelayed).reset = fresh machine.reset := by
  have board : (ofMachine machine indices enableDelayed).circuit.board = machine.board :=
    Circuit.board_ofBoard _ _ _
  rw [reset_eq (board ▸ reached.sound.cartridge) rfl, machine_ofMachine]

theorem load_ofMachine (image : ByteArray) :
    (ofMachine machine indices enableDelayed).load image =
      (machine.load image).map fun loaded => (loaded.1, fresh loaded.2) := by
  rw [load, Machine.load]
  cases accepted : Cartridge.ofImage image with
  | error refusal =>
      rw [CartridgeUnit.ofImage, accepted]
      rfl
  | ok cartridge =>
      have inserted :
          (machine.mapBoard fun board => board.insertCartridge cartridge).board.Reached := by
        have next := reached.act (.insert image)
        rw [Board.act, accepted] at next
        exact next
      have left := reset_ofMachine inserted indices enableDelayed
      have info := congrArg Cartridge.info (CartridgeUnit.cartridge_ofCartridge cartridge)
      rw [CartridgeUnit.ofImage_of_accepted accepted]
      exact congrArg₂ (fun info console => Except.ok (info, console)) info left

theorem loadBoot_ofMachine (image : ByteArray) :
    (ofMachine machine indices enableDelayed).loadBoot image =
      (machine.loadBoot image).map fresh := by
  rw [loadBoot, Machine.loadBoot]
  cases accepted : BootImage.ofBytes image with
  | error refusal => rfl
  | ok boot =>
      have inserted : (machine.mapBoard fun board => board.insertBoot boot).board.Reached := by
        have next := reached.act (.insertBoot image)
        rw [Board.act, accepted] at next
        exact next
      exact congrArg Except.ok (reset_ofMachine inserted indices enableDelayed)

/-- A call does to the machine what it does without a console, and what else is kept
belongs to the machine as before. -/
theorem exists_apply_ofMachine (call : Call) :
    ∃ last leftover, (ofMachine machine indices enableDelayed).apply call =
      ofMachine (machine.apply call) last leftover := by
  cases call with
  | runFrame =>
      rcases exists_runFrame_ofMachine machine indices enableDelayed with ⟨last, leftover, same⟩
      exact ⟨last, leftover, congrArg Prod.snd same⟩
  | step =>
      rcases exists_step_ofMachine machine indices enableDelayed with ⟨last, leftover, same⟩
      exact ⟨last, leftover, congrArg Prod.snd same⟩
  | addBreakpoint address =>
      exact ⟨indices, enableDelayed, addBreakpoint_ofMachine machine indices enableDelayed address⟩
  | removeBreakpoint address => exact ⟨indices, enableDelayed, rfl⟩
  | setButton button held => exact ⟨indices, enableDelayed, rfl⟩
  | resume => exact ⟨indices, enableDelayed, rfl⟩
  | reset => exact ⟨_, _, reset_ofMachine reached indices enableDelayed⟩
  | load image =>
      rw [apply, Machine.apply, load_ofMachine reached]
      cases machine.load image with
      | error refusal => exact ⟨indices, enableDelayed, rfl⟩
      | ok loaded => exact ⟨_, _, rfl⟩
  | loadBoot image =>
      rw [apply, Machine.apply, loadBoot_ofMachine reached]
      cases machine.loadBoot image with
      | error refusal => exact ⟨indices, enableDelayed, rfl⟩
      | ok loaded => exact ⟨_, _, rfl⟩

theorem exists_act_ofMachine (action : ConsoleAction) :
    ∃ last leftover, (ofMachine machine indices enableDelayed).act action =
      ofMachine (machine.act action.seen) last leftover := by
  cases action with
  | call call => exact exists_apply_ofMachine reached indices enableDelayed call
  | setCpu cpu later => exact ⟨indices, later, rfl⟩

theorem exists_foldl_act_ofMachine (actions : List ConsoleAction) :
    ∃ last leftover, actions.foldl act (ofMachine machine indices enableDelayed) =
      ofMachine ((actions.map ConsoleAction.seen).foldl Machine.act machine) last leftover := by
  induction actions generalizing machine indices enableDelayed with
  | nil => exact ⟨indices, enableDelayed, rfl⟩
  | cons action actions inductionHypothesis =>
      rcases exists_act_ofMachine reached indices enableDelayed action with ⟨last, leftover, same⟩
      rw [List.foldl_cons, same]
      exact inductionHypothesis (Machine.board_act_reached reached action.seen) last leftover

/-- A console that has just been turned on still is one after a call about images or
breakpoints. -/
theorem apply_fresh {call : Call} (installing : call.isInstalling = true) :
    (fresh machine).apply call = fresh (machine.apply call) := by
  cases call with
  | addBreakpoint address => exact addBreakpoint_ofMachine machine _ _ address
  | removeBreakpoint address => rfl
  | load image =>
      rw [apply, fresh, Machine.apply, load_ofMachine reached]
      cases machine.load image with
      | error refusal => rfl
      | ok loaded => rfl
  | loadBoot image =>
      rw [apply, fresh, Machine.apply, loadBoot_ofMachine reached]
      cases machine.loadBoot image with
      | error refusal => rfl
      | ok loaded => rfl
  | _ => cases installing

theorem foldl_apply_fresh {calls : List Call}
    (installing : ∀ call ∈ calls, call.isInstalling = true) :
    calls.foldl apply (fresh machine) = fresh (calls.foldl Machine.apply machine) := by
  induction calls generalizing machine with
  | nil => rfl
  | cons call calls inductionHypothesis =>
      rcases List.forall_mem_cons.mp installing with ⟨first, others⟩
      rw [List.foldl_cons, apply_fresh reached first]
      exact inductionHypothesis (Machine.board_apply_reached reached call) others

end Images

theorem exists_foldl_act_new (config : Config) (actions : List ConsoleAction) :
    ∃ indices enableDelayed, actions.foldl act (new config) =
      ofMachine ((actions.map ConsoleAction.seen).foldl Machine.act (.new config))
        indices enableDelayed := by
  have start : (Machine.new config).board.Reached := Board.reached_empty config.shades
  rw [new_eq]
  exact exists_foldl_act_ofMachine start _ false actions

theorem machine_foldl_act_new (config : Config) (actions : List ConsoleAction) :
    (actions.foldl act (new config)).machine =
      (actions.map ConsoleAction.seen).foldl Machine.act (.new config) := by
  rcases exists_foldl_act_new config actions with ⟨indices, enableDelayed, same⟩
  rw [same, machine_ofMachine]

theorem config_foldl_act_new (config : Config) (actions : List ConsoleAction) :
    (actions.foldl act (new config)).config = config :=
  (congrArg Machine.config (machine_foldl_act_new config actions)).trans
    (Machine.config_foldl_act_new config _)

/-- Whatever has happened to a console, its machine has such a history, and what else is
kept belongs to the machine. -/
theorem Reached.exists_eq_ofMachine {console : Console} (reached : console.Reached) :
    console.machine.Reached ∧
      ∃ indices enableDelayed, console = ofMachine console.machine indices enableDelayed := by
  rcases reached with ⟨config, actions, rfl⟩
  rcases exists_foldl_act_new config actions with ⟨indices, enableDelayed, same⟩
  rw [same, machine_ofMachine]
  exact ⟨⟨config, actions.map ConsoleAction.seen, rfl⟩, indices, enableDelayed, rfl⟩

end Console

namespace Content

/-- Whether a console is the one that is built with a content: a new console into which
the images have been put and to which the breakpoints have been added, in any order. -/
def Builds (content : Content) (config : Config) (console : Console) : Prop :=
  ∀ calls : List Call, (∀ call, call ∈ calls ↔ call ∈ content.calls) ->
    calls.foldl Console.apply (.new config) = console

theorem Genuine.builds_fresh {content : Content} (genuine : content.Genuine) (config : Config) :
    content.Builds config (.fresh (content.started config)) := by
  intro calls same
  have installing : ∀ call ∈ calls, call.isInstalling = true := by
    intro call member
    exact isInstalling_of_has (mem_calls_iff.mp ((same call).mp member))
  have vacant : (empty.started config).board.Reached := Board.reached_empty config.shades
  rw [Console.new_eq]
  change calls.foldl Console.apply (.fresh (empty.started config)) = _
  rw [Console.foldl_apply_fresh vacant installing, foldl_apply_started _ _ _ installing,
    genuine.foldl_install_eq same]

end Content

namespace Console

/-! ## A reset -/

/-- What the owner of a console has put into it. -/
def content (console : Console) : Content :=
  console.machine.content

/-- What a console forgets when it is turned off and on. -/
structure Forgets (console : Console) : Prop where
  /-- A reset leaves the console that is built with the same content. -/
  reset : console.content.Builds console.config console.reset
  /-- An image is accepted for its length and for the kind that it names. -/
  accepts : ∀ image, (∃ accepted, console.load image = .ok accepted) ↔
    (∃ doublings, doublings <= 8 ∧ image.size = 0x8000 * 2 ^ doublings) ∧
      Cartridge.imageByte image 0x147 <= 3
  /-- An image that is accepted leaves the console that is built with it. -/
  load : ∀ image info loaded, console.load image = .ok (info, loaded) ->
    (console.content.withImage image).Builds console.config loaded
  /-- A start-up image is accepted for its length. -/
  acceptsBoot : ∀ image, (∃ loaded, console.loadBoot image = .ok loaded) ↔ image.size = 256
  /-- A start-up image that is accepted leaves the console that is built with it. -/
  loadBoot : ∀ image loaded, console.loadBoot (BootImage.bytes image) = .ok loaded ->
    (console.content.withBootImage image).Builds console.config loaded
  /-- An image that is refused leaves the console as it is. -/
  refuses : ∀ image refusal, console.load image = .error refusal ->
    console.apply (.load image) = console
  /-- So does a start-up image. -/
  refusesBoot : ∀ image refusal, console.loadBoot image = .error refusal ->
    console.apply (.loadBoot image) = console

theorem map_eq_ok_iff {Refusal First Second : Type} {change : First -> Second}
    {answer : Except Refusal First} {value : Second} :
    answer.map change = .ok value ↔ ∃ before, answer = .ok before ∧ change before = value := by
  cases answer <;> simp [Except.map]

theorem exists_map_eq_ok_iff {Refusal First Second : Type} {change : First -> Second}
    {answer : Except Refusal First} :
    (∃ value, answer.map change = .ok value) ↔ ∃ before, answer = .ok before := by
  cases answer <;> simp [Except.map]

section Forgets

variable {console : Console} (reached : console.Reached)
include reached

theorem Reached.reset_eq : console.reset = fresh console.machine.reset := by
  rcases reached.exists_eq_ofMachine with ⟨seen, indices, enableDelayed, same⟩
  rw [same, reset_ofMachine seen.board, machine_ofMachine]

theorem Reached.load_eq (image : ByteArray) :
    console.load image =
      (console.machine.load image).map fun loaded => (loaded.1, fresh loaded.2) := by
  rcases reached.exists_eq_ofMachine with ⟨seen, indices, enableDelayed, same⟩
  rw [same, load_ofMachine seen.board, machine_ofMachine]

theorem Reached.loadBoot_eq (image : ByteArray) :
    console.loadBoot image = (console.machine.loadBoot image).map fresh := by
  rcases reached.exists_eq_ofMachine with ⟨seen, indices, enableDelayed, same⟩
  rw [same, loadBoot_ofMachine seen.board, machine_ofMachine]

/-- A console that is turned off and on is the one that is built with its images and its
breakpoints, whatever has happened to it. -/
theorem forgets_of_reached : console.Forgets where
  reset := by
    rcases reached.exists_eq_ofMachine.1.reset_eq_started with ⟨genuine, same⟩
    rw [reached.reset_eq, same]
    exact genuine.builds_fresh console.config
  accepts image := by
    rw [reached.load_eq, exists_map_eq_ok_iff]
    exact Machine.exists_load_eq_ok_iff.trans Cartridge.exists_ofImage_eq_ok_iff
  load image info loaded accepted := by
    rw [reached.load_eq] at accepted
    rcases map_eq_ok_iff.mp accepted with ⟨next, left, found⟩
    cases found
    rcases reached.exists_eq_ofMachine.1.load_eq_started left with ⟨genuine, same⟩
    rw [same]
    exact genuine.builds_fresh console.config
  acceptsBoot image := by
    rw [reached.loadBoot_eq, exists_map_eq_ok_iff]
    exact Machine.exists_loadBoot_eq_ok_iff.trans BootImage.exists_ofBytes_eq_ok_iff
  loadBoot image loaded accepted := by
    rw [reached.loadBoot_eq] at accepted
    rcases map_eq_ok_iff.mp accepted with ⟨next, left, rfl⟩
    rcases reached.exists_eq_ofMachine.1.loadBoot_eq_started left with ⟨genuine, same⟩
    rw [same]
    exact genuine.builds_fresh console.config
  refuses image refusal refused := by
    rw [apply, refused]
  refusesBoot image refusal refused := by
    rw [apply, refused]

end Forgets

def blankImage : ByteArray := Cartridge.imageOf 0x8000 fun _ => 0

/-- An image and breakpoints, and then buttons, an instruction, a processor put
elsewhere and a frame. -/
def usage : List ConsoleAction :=
  [.call (.addBreakpoint 0x0200), .call (.load blankImage), .call (.addBreakpoint 0x0150),
    .call (.setButton .start true), .call .step, .setCpu .poweredOn true, .call .runFrame]

theorem exists_ofImage_blankImage : ∃ cartridge, Cartridge.ofImage blankImage = .ok cartridge := by
  have size : blankImage.size = 0x8000 := Cartridge.size_imageOf _ _
  have kind : Cartridge.imageByte blankImage Cartridge.kindOffset = 0 :=
    Cartridge.imageByte_imageOf (by decide)
  refine Cartridge.exists_ofImage_eq_ok_iff.mpr ⟨⟨0, by decide, ?_⟩, ?_⟩
  · rw [size, Nat.pow_zero]
  · rw [kind]
    decide

theorem content_of_usage :
    (usage.foldl act (new .standard)).content = ⟨some blankImage, none, [0x0150, 0x0200]⟩ := by
  rcases exists_ofImage_blankImage with ⟨cartridge, made⟩
  have installing : (usage.map ConsoleAction.seen).flatMap HostAction.installing =
      [.addBreakpoint 0x0200, .load blankImage, .addBreakpoint 0x0150] := rfl
  rw [content, machine_foldl_act_new, Machine.content_foldl_act_new, installing, List.foldl_cons,
    List.foldl_cons, Content.install_load made]
  rfl

/-- A console that has been used is reset to a new one with the image and the
breakpoints. -/
theorem used_forgets :
    (usage.foldl act (new .standard)).Reached ∧
      [.addBreakpoint 0x0150, .load blankImage, .addBreakpoint 0x0200].foldl apply (new .standard) =
        (usage.foldl act (new .standard)).reset := by
  have reached : (usage.foldl act (new .standard)).Reached := ⟨.standard, usage, rfl⟩
  have rebuilt := (forgets_of_reached reached).reset
  rw [config_foldl_act_new, content_of_usage] at rebuilt
  refine ⟨reached, rebuilt _ ?_⟩
  intro call
  simp [Content.calls, or_left_comm]

end Console

end Dmg
