import Dmg.Proofs.Board.Reset
import Dmg.Proofs.Machine.Content

/-!
# Turning the power off and on

A machine that is turned off and on is the machine that its owner would have by
building a new one, putting the same images in and adding the same breakpoints.
Nothing that a program did is left, nor anything that the owner did to the
processor and the buttons.

The reason is that a reset can be brought forward.  What is done about images and
breakpoints before a reset may as well be done after it, and whatever else is done
before a reset may as well be left out.
-/

namespace Dmg

namespace Machine

/-! ## A reset brought forward -/

/-- A reset reads nothing of a machine but what its board keeps, its
configuration and its breakpoints. -/
theorem reset_eq_of_kept {machine next : Machine} (board : next.board.reset = machine.board.reset)
    (config : next.config = machine.config) (breakpoints : next.breakpoints = machine.breakpoints) :
    next.reset = machine.reset := by
  rw [reset_eq, reset_eq, board, config, breakpoints]

theorem reset_reset (machine : Machine) : machine.reset.reset = machine.reset :=
  reset_eq_of_kept machine.board.reset_reset rfl rfl

theorem reset_step (machine : Machine) : machine.step.2.reset = machine.reset := by
  have executed := machine.core.reset_instruction
  rw [step]
  split
  · rfl
  · split <;> next same =>
      rw [same] at executed
      exact reset_eq_of_kept executed rfl rfl

theorem reset_afterSteps (machine : Machine) (count : Nat) :
    (machine.afterSteps count).reset = machine.reset := by
  induction count generalizing machine with
  | zero => rfl
  | succ count inductionHypothesis =>
      rw [afterSteps, inductionHypothesis, reset_step]

/-- A frame is a number of calls for an instruction, but for where it paused. -/
theorem reset_runFrame (machine : Machine) : machine.runFrame.2.reset = machine.reset := by
  change machine.runFrame.2.unpaused.reset = machine.unpaused.reset
  rw [machine.frameCalls_eq.2, reset_afterSteps]

/-- Putting an image in depends on what is kept by a reset and on nothing else. -/
theorem load_reset (machine : Machine) (image : ByteArray) :
    machine.reset.load image = machine.load image := by
  rw [load, load]
  cases Cartridge.ofImage image with
  | error refusal => rfl
  | ok cartridge => rfl

theorem loadBoot_reset (machine : Machine) (image : ByteArray) :
    machine.reset.loadBoot image = machine.loadBoot image := by
  rw [loadBoot, loadBoot]
  cases BootImage.ofBytes image with
  | error refusal => rfl
  | ok boot =>
      exact congrArg Except.ok (reset_eq_of_kept
        (Board.reset_eq_of_kept rfl machine.board.cartridge.reset_reset rfl) rfl rfl)

theorem reset_loaded {machine loaded : Machine} {image : ByteArray} {info : CartridgeInfo}
    (accepted : machine.load image = .ok (info, loaded)) : loaded.reset = loaded := by
  rw [load] at accepted
  split at accepted
  · cases accepted
  · cases accepted
    exact reset_reset _

theorem reset_loadedBoot {machine loaded : Machine} {image : ByteArray}
    (accepted : machine.loadBoot image = .ok loaded) : loaded.reset = loaded := by
  rw [loadBoot] at accepted
  split at accepted
  · cases accepted
  · cases accepted
    exact reset_reset _

theorem reset_addBreakpoint (machine : Machine) (address : UInt16) :
    (machine.addBreakpoint address).2.reset = (machine.reset.addBreakpoint address).2 := by
  have later : machine.reset.breakpoints.contains address =
      machine.breakpoints.contains address := rfl
  rw [addBreakpoint, addBreakpoint, later]
  split <;> rfl

/-- A call about images or breakpoints may as well come after a reset as before
it. -/
theorem reset_apply_of_isInstalling (machine : Machine) {call : Call}
    (installing : call.isInstalling = true) :
    (machine.apply call).reset = machine.reset.apply call := by
  cases call with
  | addBreakpoint address => exact machine.reset_addBreakpoint address
  | removeBreakpoint address => rfl
  | load image =>
      rw [apply, apply, load_reset]
      cases same : machine.load image with
      | error refusal => rfl
      | ok loaded => exact reset_loaded same
  | loadBoot image =>
      rw [apply, apply, loadBoot_reset]
      cases same : machine.loadBoot image with
      | error refusal => rfl
      | ok loaded => exact reset_loadedBoot same
  | _ => cases installing

/-- Any other call may as well not be there when a reset follows. -/
theorem reset_apply_of_not_isInstalling (machine : Machine) {call : Call}
    (other : call.isInstalling = false) : (machine.apply call).reset = machine.reset := by
  cases call with
  | runFrame => exact machine.reset_runFrame
  | step => exact machine.reset_step
  | setButton button held => rfl
  | resume => rfl
  | reset => exact machine.reset_reset
  | _ => cases other

end Machine

/-- What can happen to a machine from outside. -/
inductive HostAction where
  /-- Its owner asks something of it. -/
  | call (call : Call)
  /-- Its owner puts the processor into another state. -/
  | setCpu (cpu : Cpu)

namespace HostAction

/-- The call of an action that is about images or breakpoints, and none for any
other action. -/
def installing : HostAction -> List Call
  | .call asked => if asked.isInstalling then [asked] else []
  | .setCpu _ => []

end HostAction

theorem HostAction.isInstalling_of_mem {action : HostAction} {call : Call}
    (member : call ∈ action.installing) : call.isInstalling = true := by
  cases action with
  | setCpu cpu => cases member
  | call asked =>
      rw [installing] at member
      split at member
      · next about =>
        rw [List.mem_singleton.mp member]
        exact about
      · cases member

namespace Machine

def act (machine : Machine) : HostAction -> Machine
  | .call call => machine.apply call
  | .setCpu cpu => machine.mapCpu fun _ => cpu

/-- A machine with a history: it was new once, and then some actions followed. -/
def Reached (machine : Machine) : Prop :=
  ∃ (config : Config) (actions : List HostAction), actions.foldl act (new config) = machine

theorem reset_act (machine : Machine) (action : HostAction) :
    (machine.act action).reset = action.installing.foldl apply machine.reset := by
  cases action with
  | setCpu cpu => rfl
  | call call =>
      rw [act, HostAction.installing]
      cases same : call.isInstalling with
      | true => exact machine.reset_apply_of_isInstalling same
      | false => exact machine.reset_apply_of_not_isInstalling same

/-- Of a whole history, a reset leaves what was done about images and
breakpoints, as if nothing else had been done. -/
theorem reset_foldl_act (machine : Machine) (actions : List HostAction) :
    (actions.foldl act machine).reset =
      (actions.flatMap HostAction.installing).foldl apply machine.reset := by
  induction actions generalizing machine with
  | nil => rfl
  | cons action actions inductionHypothesis =>
      rw [List.foldl_cons, inductionHypothesis, reset_act, List.flatMap_cons,
        List.foldl_append]

theorem reset_foldl_act_new (config : Config) (actions : List HostAction) :
    (actions.foldl act (new config)).reset =
      ((actions.flatMap HostAction.installing).foldl Content.install .empty).started config := by
  have installing : ∀ call ∈ actions.flatMap HostAction.installing, call.isInstalling = true := by
    intro call member
    rcases List.mem_flatMap.mp member with ⟨action, -, asked⟩
    exact HostAction.isInstalling_of_mem asked
  rw [reset_foldl_act]
  change (actions.flatMap HostAction.installing).foldl apply
    (Content.empty.started config).reset = _
  rw [Content.reset_started, Content.foldl_apply_started _ _ _ installing]

theorem config_foldl_act_new (config : Config) (actions : List HostAction) :
    (actions.foldl act (new config)).config = config :=
  (congrArg Machine.config (reset_foldl_act_new config actions) :)

/-- What is in a machine is what its owner has put into it and not taken out. -/
theorem content_foldl_act_new (config : Config) (actions : List HostAction) :
    (actions.foldl act (new config)).content =
      (actions.flatMap HostAction.installing).foldl Content.install .empty := by
  change (actions.foldl act (new config)).reset.content = _
  rw [reset_foldl_act_new]
  exact (Content.genuine_empty.foldl_install _).content_started config

/-- A machine with a history is reset to one with the same content that has just
been turned on. -/
theorem Reached.reset_eq_started {machine : Machine} (reached : machine.Reached) :
    machine.content.Genuine ∧ machine.reset = machine.content.started machine.config := by
  rcases reached with ⟨config, actions, rfl⟩
  rw [content_foldl_act_new, config_foldl_act_new]
  exact ⟨Content.genuine_empty.foldl_install _, reset_foldl_act_new config actions⟩

theorem exists_load_eq_ok_iff {machine : Machine} {image : ByteArray} :
    (∃ accepted, machine.load image = .ok accepted) ↔
      ∃ cartridge, Cartridge.ofImage image = .ok cartridge := by
  rw [load]
  cases Cartridge.ofImage image with
  | error refusal => simp
  | ok cartridge => simp

theorem exists_loadBoot_eq_ok_iff {machine : Machine} {image : ByteArray} :
    (∃ loaded, machine.loadBoot image = .ok loaded) ↔
      ∃ boot, BootImage.ofBytes image = .ok boot := by
  rw [loadBoot]
  cases BootImage.ofBytes image with
  | error refusal => simp
  | ok boot => simp

/-- A call that leaves a machine as if it had just been turned on leaves the one
with the content that the call makes. -/
theorem Reached.apply_eq_started {machine : Machine} (reached : machine.Reached) {call : Call}
    (installing : call.isInstalling = true)
    (fresh : (machine.apply call).reset = machine.apply call) :
    machine.apply call = (machine.content.install call).started machine.config := by
  calc machine.apply call
      = (machine.apply call).reset := fresh.symm
    _ = machine.reset.apply call := machine.reset_apply_of_isInstalling installing
    _ = (machine.content.started machine.config).apply call := by rw [reached.reset_eq_started.2]
    _ = (machine.content.install call).started machine.config :=
        machine.content.apply_started machine.config installing

/-- An image that is accepted leaves a machine with it that has just been turned on. -/
theorem Reached.load_eq_started {machine loaded : Machine} {image : ByteArray}
    {info : CartridgeInfo} (reached : machine.Reached)
    (accepted : machine.load image = .ok (info, loaded)) :
    (machine.content.withImage image).Genuine ∧
      loaded = (machine.content.withImage image).started machine.config := by
  rcases exists_load_eq_ok_iff.mp ⟨_, accepted⟩ with ⟨cartridge, made⟩
  have left : machine.apply (.load image) = loaded := by
    rw [apply, accepted]
  have started := reached.apply_eq_started rfl (left.symm ▸ reset_loaded accepted)
  rw [← Content.install_load made, ← left, started]
  exact ⟨reached.reset_eq_started.1.install _, rfl⟩

/-- So does a start-up image. -/
theorem Reached.loadBoot_eq_started {machine loaded : Machine} {image : BootImage}
    (reached : machine.Reached) (accepted : machine.loadBoot image.bytes = .ok loaded) :
    (machine.content.withBootImage image).Genuine ∧
      loaded = (machine.content.withBootImage image).started machine.config := by
  have left : machine.apply (.loadBoot image.bytes) = loaded := by
    rw [apply, accepted]
  have started := reached.apply_eq_started rfl (left.symm ▸ reset_loadedBoot accepted)
  rw [← Content.install_loadBoot, ← left, started]
  exact ⟨reached.reset_eq_started.1.install _, rfl⟩

end Machine

end Dmg
