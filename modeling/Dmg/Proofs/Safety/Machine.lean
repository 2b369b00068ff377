import Dmg.Proofs.Safety.Arithmetic
import Dmg.Proofs.Safety.Board
import Dmg.Proofs.Safety.Listing

/-!
# No program breaks the machine

The checks of the devices are put together to those of the machine.  Nothing in it
ever fails: whatever bytes its images are made of, whatever its program does, and
whatever its owner asks for in between, no sum is too large for its word, no
difference falls below zero, and no place lies behind the end of a memory.

The one limit is on the length of a frame, which has to leave room for the longest
instruction in the word that counts its clock cycles.
-/

namespace Dmg

/-! ## One instruction -/

namespace Wired

/-- The processor with its board in a guard. -/
def guarded (wired : Wired Board) : Wired (Option Board) :=
  ⟨wired.cpu, some wired.memory⟩

/-- The processor with its board out of the guard, if the board is still there. -/
def released? (guarded : Wired (Option Board)) : Option (Wired Board) := do
  let board <- guarded.memory
  some ⟨guarded.cpu, board⟩

def advance? (wired : Wired Board) (timing : Timing) : Option (Wired Board) := do
  let board <- wired.memory.advance? timing
  some { wired with memory := board }

/-- Let the devices go on for a dispatch, if there is one, and add up the time. -/
def spend? (wired : Wired Board) (timing : Timing) :
    Option Timing -> Option (Timing × Wired Board)
  | none => some (timing, wired)
  | some dispatch => do
      let advanced <- wired.advance? dispatch
      let clocks <- Checked.add 32 timing.clocks dispatch.clocks
      some (⟨clocks⟩, advanced)

def settleInterrupts? (wired : Wired Board) (timing : Timing) : Option (Timing × Wired Board) := do
  let served := wired.guarded.serviceInterrupts
  let checked <- served.2.released?
  checked.spend? timing served.1

def goOn? (wired : Wired Board) :
    Except DecodeError Timing -> Option (Except DecodeError Timing × Wired Board)
  | .error failure => some (.error failure, wired)
  | .ok timing => do
      let advanced <- wired.advance? timing
      let settled <- advanced.settleInterrupts? timing
      some (.ok settled.1, settled.2)

def instruction? (wired : Wired Board) : Option (Except DecodeError Timing × Wired Board) := do
  let executed <- wired.guarded.step?
  let stepped <- executed.2.released?
  stepped.goOn? executed.1

section Instruction

variable {wired : Wired Board}

theorem released?_step_guarded (reached : wired.memory.Reached) :
    wired.guarded.step.1 = wired.step.1 ∧
      wired.guarded.step.2.released? = some wired.step.2 := by
  let kept : Wired Board.reachedInvariant.Kept := ⟨wired.cpu, ⟨wired.memory, reached⟩⟩
  have plain : wired.step = (kept.step.1, Board.reachedInvariant.view.wired kept.step.2) :=
    Board.reachedInvariant.view.step_wired kept
  have guarded : wired.guarded.step = (kept.step.1, Board.guard.wired kept.step.2) :=
    Board.guard.step_wired kept
  rw [plain, guarded]
  exact ⟨rfl, rfl⟩

theorem released?_serviceInterrupts_guarded (reached : wired.memory.Reached) :
    wired.guarded.serviceInterrupts.1 = wired.serviceInterrupts.1 ∧
      wired.guarded.serviceInterrupts.2.released? = some wired.serviceInterrupts.2 := by
  let kept : Wired Board.reachedInvariant.Kept := ⟨wired.cpu, ⟨wired.memory, reached⟩⟩
  have plain : wired.serviceInterrupts =
      (kept.serviceInterrupts.1, Board.reachedInvariant.view.wired kept.serviceInterrupts.2) :=
    Board.reachedInvariant.view.serviceInterrupts_wired kept
  have guarded : wired.guarded.serviceInterrupts =
      (kept.serviceInterrupts.1, Board.guard.wired kept.serviceInterrupts.2) :=
    Board.guard.serviceInterrupts_wired kept
  rw [plain, guarded]
  exact ⟨rfl, rfl⟩

theorem advance?_eq (reached : wired.memory.Reached) {timing : Timing} (few : timing.clocks <= 24) :
    wired.advance? timing = some (wired.advance timing) := by
  rw [advance?, Board.advance?_eq reached.sound (Nat.lt_of_le_of_lt few (by decide))]
  rfl

theorem settleInterrupts?_eq (reached : wired.memory.Reached) {timing : Timing}
    (few : timing.clocks <= 24) :
    wired.settleInterrupts? timing = some (wired.settleInterrupts timing) := by
  have served : wired.serviceInterrupts.2.memory.Reached :=
    Board.reachedInvariant.serviceInterrupts_holds reached
  rcases released?_serviceInterrupts_guarded reached with ⟨answer, checked⟩
  rw [settleInterrupts?, settleInterrupts, answer, checked]
  rw [serviceInterrupts_eq] at served ⊢
  cases found : wired.dispatched? with
  | none => rfl
  | some handled =>
      rw [found] at served
      have sum : timing.clocks + dispatchTiming.clocks < 2 ^ 32 :=
        Nat.lt_of_le_of_lt (Nat.add_le_add_right few _) (by decide)
      dsimp only [Option.bind_eq_bind, Option.bind_some]
      rw [spend?, advance?_eq served (by decide), Checked.add_eq sum]
      rfl

theorem instruction?_eq (reached : wired.memory.Reached) :
    wired.instruction? = some wired.instruction := by
  have executed : wired.step.2.memory.Reached := Board.reachedInvariant.step_holds reached
  rcases released?_step_guarded reached with ⟨answer, stepped⟩
  rw [instruction?, step?_eq, instruction]
  dsimp only [Option.bind_eq_bind, Option.bind_some]
  rw [answer, stepped]
  rcases same : wired.step with ⟨result, next⟩
  rw [same] at executed
  cases result with
  | error failure => rfl
  | ok timing =>
      have few := step_clocks_le same
      have advanced : (next.advance timing).memory.Reached := executed.act (.advance timing)
      dsimp only [Option.bind_some]
      rw [goOn?, advance?_eq executed few, Option.bind_eq_bind, Option.bind_some,
        settleInterrupts?_eq advanced few]
      rfl

theorem le_clocks_of_spend? {timing : Timing} {dispatch : Option Timing}
    {spent : Timing × Wired Board} (answered : wired.spend? timing dispatch = some spent) :
    timing.clocks <= spent.1.clocks := by
  cases dispatch with
  | none =>
      cases answered
      exact Nat.le_refl _
  | some dispatch =>
      rcases Option.bind_eq_some_iff.mp answered with ⟨advanced, -, answered⟩
      rcases Option.bind_eq_some_iff.mp answered with ⟨clocks, summed, answered⟩
      cases answered
      rw [Checked.eq_of_add_eq_some summed]
      exact Nat.le_add_right _ _

/-- An instruction that has an answer takes some time, whatever the state of its
board. -/
theorem clocks_pos_of_instruction? {next : Wired Board} {timing : Timing}
    (answered : wired.instruction? = some (.ok timing, next)) : 0 < timing.clocks := by
  rw [instruction?, step?_eq, Option.bind_eq_bind, Option.bind_some] at answered
  rcases same : wired.guarded.step with ⟨result, stepped⟩
  rw [same] at answered
  rcases Option.bind_eq_some_iff.mp answered with ⟨released, -, answered⟩
  cases result with
  | error failure => cases answered
  | ok spent =>
      rcases Option.bind_eq_some_iff.mp answered with ⟨advanced, -, answered⟩
      rcases Option.bind_eq_some_iff.mp answered with ⟨settled, looked, answered⟩
      rcases Option.bind_eq_some_iff.mp looked with ⟨checked, -, looked⟩
      cases answered
      exact Nat.lt_of_lt_of_le (step_clocks_pos same) (le_clocks_of_spend? looked)

end Instruction

end Wired

namespace Machine

/-! ## Calls -/

def step? (machine : Machine) : Option (Except DecodeError Timing × Machine) :=
  match machine.fault with
  | some failure => some (.error failure, machine)
  | none =>
      match machine.core.instruction? with
      | none => none
      | some (.error failure, core) =>
          some (.error failure, { machine with core := core, fault := some failure })
      | some (.ok timing, core) => some (.ok timing, { machine with core := core })

theorem clocks_pos_of_step? {machine next : Machine} {timing : Timing}
    (answered : machine.step? = some (.ok timing, next)) : 0 < timing.clocks := by
  rw [step?] at answered
  split at answered
  · cases answered
  · split at answered
    · cases answered
    · cases answered
    · next executed =>
      cases answered
      exact Wired.clocks_pos_of_instruction? executed

def runUntil? (budget : Nat) (machine : Machine) (elapsed : Nat) :
    Option (Except DecodeError FrameOutcome × Machine) :=
  if elapsed < budget then
    if machine.cpu.stopped then some (.ok .stopped, machine)
    else if machine.isAtBreakpoint then
      some (.ok (.breakpoint machine.cpu.registers.pc),
        { machine with pausedAt := some machine.cpu.registers.pc })
    else
      match stepped : machine.unpaused.step? with
      | none => none
      | some (.error failure, next) => some (.error failure, next)
      | some (.ok timing, next) =>
          match summed : Checked.add 32 elapsed timing.clocks with
          | none => none
          | some spent =>
              have := clocks_pos_of_step? stepped
              have := Checked.eq_of_add_eq_some summed
              runUntil? budget next spent
  else some (.ok .completed, machine)
termination_by budget - elapsed
decreasing_by omega

def runFrame? (machine : Machine) : Option (Except DecodeError FrameOutcome × Machine) :=
  if machine.isFrozen then some (.ok .frozen, machine)
  else machine.runUntil? machine.config.cyclesPerFrame 0

def reset? (machine : Machine) : Option Machine := do
  let board <- machine.board.reset?
  let cpu := machine.cpu.reset
  some
    { machine with
      core := ⟨if board.bootActive then cpu.powerOn else cpu, board⟩
      pausedAt := none
      fault := none }

def load? (machine : Machine) (image : ByteArray) :
    Option (Except ImageError (CartridgeInfo × Machine)) := do
  match <- Cartridge.ofImage? image with
  | .error refusal => some (.error refusal)
  | .ok cartridge => do
      let loaded <- (machine.mapBoard fun board => board.insertCartridge cartridge).reset?
      some (.ok (cartridge.info, loaded))

def loadBoot? (machine : Machine) (image : ByteArray) : Option (Except ImageError Machine) :=
  match BootImage.ofBytes image with
  | .error refusal => some (.error refusal)
  | .ok boot => do
      let loaded <- (machine.mapBoard fun board => board.insertBoot boot).reset?
      some (.ok loaded)

def new? (config : Config) : Option Machine := do
  let board <- Board.start? config.shades Cartridge.absent none
  some { new config with core := ⟨.afterBoot, board⟩ }

def peek? (machine : Machine) (address : UInt16) : Option UInt8 :=
  machine.board.read? address

def peekRange? (machine : Machine) (address : UInt16) : Nat -> Option (List UInt8)
  | 0 => some []
  | count + 1 => do
      let byte <- machine.peek? address
      let bytes <- machine.peekRange? (address + 1) count
      some (byte :: bytes)

def disassemble? (machine : Machine) (address : UInt16) : Option Disassembly :=
  Disassembly.lineAt? machine.peek? address

/-- The machine after a call.  A call that is not listed neither adds nor looks
anything up. -/
def applyCall? (machine : Machine) : Call -> Option Machine
  | .runFrame => machine.runFrame?.map Prod.snd
  | .step => machine.step?.map Prod.snd
  | .reset => machine.reset?
  | .load image => do
      match <- machine.load? image with
      | .ok loaded => some loaded.2
      | .error _ => some machine
  | .loadBoot image => do
      match <- machine.loadBoot? image with
      | .ok loaded => some loaded
      | .error _ => some machine
  | call => some (machine.apply call)

def act? (machine : Machine) : HostAction -> Option Machine
  | .call call => machine.applyCall? call
  | .setCpu cpu => some (machine.mapCpu fun _ => cpu)

/-! ## Every call has its answer -/

theorem new?_eq (config : Config) : new? config = some (new config) := by
  rw [new?, Board.start?_eq]
  rfl

section Calls

variable {machine : Machine}

theorem reset?_eq (machine : Machine) : machine.reset? = some machine.reset := by
  rw [reset?, Board.reset?_eq]
  rfl

theorem load?_eq (machine : Machine) (image : ByteArray) :
    machine.load? image = some (machine.load image) := by
  rw [load?, load, Cartridge.ofImage?_eq]
  cases Cartridge.ofImage image with
  | error refusal => rfl
  | ok cartridge =>
      dsimp only [Option.bind_eq_bind, Option.bind_some]
      rw [reset?_eq]
      rfl

theorem loadBoot?_eq (machine : Machine) (image : ByteArray) :
    machine.loadBoot? image = some (machine.loadBoot image) := by
  rw [loadBoot?, loadBoot]
  cases BootImage.ofBytes image with
  | error refusal => rfl
  | ok boot =>
      dsimp only
      rw [reset?_eq]
      rfl

theorem step?_eq (reached : machine.board.Reached) : machine.step? = some machine.step := by
  rw [step?, step]
  cases machine.fault with
  | some failure => rfl
  | none =>
      dsimp only
      rw [Wired.instruction?_eq reached]
      rcases machine.core.instruction with ⟨answer, core⟩
      cases answer <;> rfl

theorem unpaused_step?_eq (reached : machine.board.Reached) :
    machine.unpaused.step? = some machine.unpaused.step := by
  have unpaused : machine.unpaused.board.Reached := reached
  exact step?_eq unpaused

/-- A frame that leaves room for the longest instruction never counts too far. -/
theorem runUntil?_eq {budget : Nat} (fits : budget <= 2 ^ 32 - 40)
    (reached : machine.board.Reached) (elapsed : Nat) :
    machine.runUntil? budget elapsed = some (machine.runUntil budget elapsed) := by
  fun_induction runUntil? budget machine elapsed with
  | case1 machine elapsed more stopped => rw [runUntil, if_pos more, if_pos stopped]
  | case2 machine elapsed more running pauses =>
      rw [runUntil, if_pos more, if_neg running, if_pos pauses]
  | case3 machine elapsed more running free stepped =>
      rw [unpaused_step?_eq reached] at stepped
      cases stepped
  | case4 machine elapsed more running free failure next stepped =>
      rw [unpaused_step?_eq reached] at stepped
      rw [runUntil_of_step more (Bool.eq_false_iff.mpr running) (Bool.eq_false_iff.mpr free)
        (Option.some.inj stepped)]
  | case5 machine elapsed more running free timing next stepped summed =>
      rw [unpaused_step?_eq reached] at stepped
      have few := machine.unpaused.stepClocks_le
      rw [stepClocks_of_ok (Option.some.inj stepped)] at few
      rw [Checked.add_eq (by omega)] at summed
      cases summed
  | case6 machine elapsed more running free timing next stepped spent summed
      inductionHypothesis =>
      have unpaused : machine.unpaused.board.Reached := reached
      have kept := board_step_reached unpaused
      rw [unpaused_step?_eq reached] at stepped
      have stepped := Option.some.inj stepped
      rw [stepped] at kept
      rw [inductionHypothesis kept, Checked.eq_of_add_eq_some summed,
        runUntil_of_step more (Bool.eq_false_iff.mpr running) (Bool.eq_false_iff.mpr free) stepped]
  | case7 machine elapsed spent => rw [runUntil, if_neg spent]

theorem runFrame?_eq (fits : machine.config.cyclesPerFrame <= 2 ^ 32 - 40)
    (reached : machine.board.Reached) : machine.runFrame? = some machine.runFrame := by
  rw [runFrame?, runFrame]
  split
  · rfl
  · exact runUntil?_eq fits reached 0

theorem peek?_eq (reached : machine.board.Reached) (address : UInt16) :
    machine.peek? address = some (machine.peek address) :=
  Board.read?_eq reached.sound.cartridge address

theorem peekRange?_eq (reached : machine.board.Reached) (address : UInt16) (count : Nat) :
    machine.peekRange? address count = some (machine.peekRange address count) := by
  induction count generalizing address with
  | zero => rfl
  | succ count inductionHypothesis =>
      rw [peekRange?, peek?_eq reached, inductionHypothesis]
      rfl

theorem applyCall?_eq (fits : machine.config.cyclesPerFrame <= 2 ^ 32 - 40)
    (reached : machine.board.Reached) (call : Call) :
    machine.applyCall? call = some (machine.apply call) := by
  cases call with
  | runFrame =>
      rw [applyCall?, runFrame?_eq fits reached]
      rfl
  | step =>
      rw [applyCall?, step?_eq reached]
      rfl
  | reset => exact machine.reset?_eq
  | load image =>
      rw [applyCall?, load?_eq, apply]
      cases machine.load image <;> rfl
  | loadBoot image =>
      rw [applyCall?, loadBoot?_eq, apply]
      cases machine.loadBoot image <;> rfl
  | addBreakpoint address | removeBreakpoint address | setButton button held | resume => rfl

theorem act?_eq (fits : machine.config.cyclesPerFrame <= 2 ^ 32 - 40)
    (reached : machine.board.Reached) (action : HostAction) :
    machine.act? action = some (machine.act action) := by
  cases action with
  | call call => exact applyCall?_eq fits reached call
  | setCpu cpu => rfl

end Calls

/-- What may be asked of a machine next is answered under all checks, and as it is
without them. -/
structure Answers (machine : Machine) : Prop where
  step : machine.step? = some machine.step
  runFrame : machine.runFrame? = some machine.runFrame
  load : ∀ image, machine.load? image = some (machine.load image)
  loadBoot : ∀ image, machine.loadBoot? image = some (machine.loadBoot image)
  act : ∀ action, machine.act? action = some (machine.act action)
  peek : ∀ address, machine.peek? address = some (machine.peek address)
  peekRange : ∀ address count,
    machine.peekRange? address count = some (machine.peekRange address count)
  disassemble : ∀ address, machine.disassemble? address = some (machine.disassemble address)

theorem answers_of_reached {machine : Machine}
    (fits : machine.config.cyclesPerFrame <= 2 ^ 32 - 40) (reached : machine.Reached) :
    machine.Answers where
  step := step?_eq reached.board
  runFrame := runFrame?_eq fits reached.board
  load := machine.load?_eq
  loadBoot := machine.loadBoot?_eq
  act := act?_eq fits reached.board
  peek := peek?_eq reached.board
  peekRange := peekRange?_eq reached.board
  disassemble := Disassembly.lineAt?_eq (peek?_eq reached.board)

/-- Nothing that a program or an owner does makes a check fail.  Whatever images are
put in, whatever states the processor is put into, and whatever is asked for in
between, every sum fits its word, no difference falls below zero, every place is
there, and a line is composed only while it is on the screen. -/
theorem checks_never_fail (config : Config) (fits : config.cyclesPerFrame <= 2 ^ 32 - 40)
    (actions : List HostAction) :
    let machine := actions.foldl act (new config)
    new? config = some (new config) ∧
      actions.foldlM act? (new config) = some machine ∧
      machine.Answers := by
  have answers (actions : List HostAction) : (actions.foldl act (new config)).Answers := by
    apply answers_of_reached
    · rw [config_foldl_act_new]
      exact fits
    · exact ⟨config, actions, rfl⟩
  have done : actions.foldlM act? (new config) = some (actions.foldl act (new config)) :=
    Checked.foldlM_eq_some id
      (fun machine => ∃ earlier : List HostAction, earlier.foldl act (new config) = machine)
      (by
        rintro action - _ ⟨earlier, rfl⟩
        exact ⟨(answers earlier).act action, earlier ++ [action], List.foldl_concat _ _ _ _⟩)
      ⟨[], rfl⟩
  exact ⟨new?_eq config, done, answers actions⟩

/-- A machine that shows one picture in a frame, with nothing in its slot. -/
theorem standard_frame_passes_checks :
    Config.standard.cyclesPerFrame <= 2 ^ 32 - 40 ∧
      (new .standard).runFrame? = some (new .standard).runFrame := by
  have fits : Config.standard.cyclesPerFrame <= 2 ^ 32 - 40 := by decide
  exact ⟨fits, (checks_never_fail .standard fits []).2.2.runFrame⟩

end Machine

end Dmg
