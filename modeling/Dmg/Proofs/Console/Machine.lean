import Dmg.Proofs.Console.Circuit
import Dmg.Proofs.Cpu.Latches
import Dmg.Proofs.Machine.Reset

/-!
# The machine with what its parts keep for themselves

A console is the machine with all that its parts keep and do not show: the second
latch of the processor, the decoded palettes, the indices of a line, the numbers of
banks, and whether the serial link logs.  Everything that can be done with a machine is
done here with the console, and a reset goes through all of its fields.

A machine and what is left in the latch and the line determine the rest of the console,
and whatever is done next does to the machine what it does without a console.
-/

namespace Dmg

/-! ## Instructions -/

namespace Circuit

def settleInterrupts (wired : Wired Circuit) (timing : Timing) : Timing × Wired Circuit :=
  match wired.serviceInterrupts with
  | (none, checked) => (timing, checked)
  | (some dispatch, checked) =>
      (timing + dispatch, { checked with memory := checked.memory.advance dispatch })

def instruction (latched : Latched Circuit) : Except DecodeError Timing × Latched Circuit :=
  match latched.step with
  | (.error failure, stepped) => (.error failure, stepped)
  | (.ok timing, stepped) =>
      let advanced := { stepped.wired with memory := stepped.wired.memory.advance timing }
      let settled := settleInterrupts advanced timing
      (.ok settled.1, ⟨settled.2, stepped.enableDelayed⟩)

theorem settleInterrupts_clocks_ge (wired : Wired Circuit) (timing : Timing) :
    timing.clocks <= (settleInterrupts wired timing).1.clocks := by
  rw [settleInterrupts]
  split
  · exact Nat.le_refl _
  · exact Nat.le_add_right _ _

theorem instruction_clocks_pos {latched next : Latched Circuit} {timing : Timing}
    (executed : instruction latched = (.ok timing, next)) : 0 < timing.clocks := by
  rcases latched.exists_step_eq with ⟨leftover, same⟩
  rw [instruction, same] at executed
  rcases stepped : latched.wired.step with ⟨answer, wired⟩
  rw [stepped] at executed
  cases answer with
  | error failure => cases executed
  | ok spent =>
      cases executed
      exact Nat.lt_of_lt_of_le (Wired.step_clocks_pos stepped) (settleInterrupts_clocks_ge _ _)

variable (logsBytes : Bool) (indices : IndexLine)

theorem exists_advance_view (wired : Wired Board) (timing : Timing) :
    ∃ last,
      { (view logsBytes indices).wired wired with
        memory := ((view logsBytes indices).wired wired).memory.advance timing } =
      (view logsBytes last).wired (wired.advance timing) := by
  rcases exists_advance_ofBoard wired.memory logsBytes indices timing with ⟨last, same⟩
  exact ⟨last, congrArg (Wired.mk wired.cpu) same⟩

theorem exists_settleInterrupts_view (wired : Wired Board) (timing : Timing) :
    ∃ last, settleInterrupts ((view logsBytes indices).wired wired) timing =
      ((wired.settleInterrupts timing).1,
        (view logsBytes last).wired (wired.settleInterrupts timing).2) := by
  rw [settleInterrupts, Wired.settleInterrupts, (view logsBytes indices).serviceInterrupts_wired]
  rcases wired.serviceInterrupts with ⟨answer, checked⟩
  cases answer with
  | none => exact ⟨indices, rfl⟩
  | some dispatch =>
      rcases exists_advance_view logsBytes indices checked dispatch with ⟨last, same⟩
      exact ⟨last, congrArg (timing + dispatch, ·) same⟩

/-- An instruction does to the board what it does without anything kept. -/
theorem exists_instruction_view (core : Wired Board) (enableDelayed : Bool) :
    ∃ last leftover, instruction ⟨(view logsBytes indices).wired core, enableDelayed⟩ =
      (core.instruction.1, ⟨(view logsBytes last).wired core.instruction.2, leftover⟩) := by
  let latched : Latched Circuit := ⟨(view logsBytes indices).wired core, enableDelayed⟩
  rcases latched.exists_step_eq with ⟨leftover, same⟩
  have stepped : latched.wired.step =
      (core.step.1, (view logsBytes indices).wired core.step.2) :=
    (view logsBytes indices).step_wired core
  rw [stepped] at same
  change ∃ last leftover, instruction latched = _
  rw [instruction, Wired.instruction, same]
  rcases core.step with ⟨answer, next⟩
  cases answer with
  | error failure => exact ⟨indices, leftover, rfl⟩
  | ok timing =>
      rcases exists_advance_view logsBytes indices next timing with ⟨between, advanced⟩
      rcases exists_settleInterrupts_view logsBytes between (next.advance timing) timing with
        ⟨last, settled⟩
      refine ⟨last, leftover, ?_⟩
      dsimp only
      rw [advanced, settled]

end Circuit

/-! ## The console -/

/-- A machine with all that its parts keep.  It differs from a machine in what is behind
its bus and in the second latch of its processor. -/
@[ext] structure Console where
  core : Latched Circuit
  config : Config
  breakpoints : List UInt16
  pausedAt : Option UInt16
  fault : Option DecodeError

namespace Console

def cpu (console : Console) : Cpu :=
  console.core.wired.cpu

def circuit (console : Console) : Circuit :=
  console.core.wired.memory

/-- The machine that can be seen. -/
def machine (console : Console) : Machine where
  core := ⟨console.cpu, console.circuit.board⟩
  config := console.config
  breakpoints := console.breakpoints
  pausedAt := console.pausedAt
  fault := console.fault

/-- Change the processor, but not its second latch. -/
def mapCpu (console : Console) (change : Cpu -> Cpu) : Console :=
  { console with
    core := ⟨{ console.core.wired with cpu := change console.cpu }, console.core.enableDelayed⟩ }

def mapCircuit (console : Console) (change : Circuit -> Circuit) : Console :=
  { console with
    core := ⟨{ console.core.wired with memory := change console.circuit },
      console.core.enableDelayed⟩ }

def new (config : Config) : Console where
  core := ⟨⟨.afterBoot, .new config⟩, false⟩
  config := config
  breakpoints := []
  pausedAt := none
  fault := none

/-- Turn the power off and on: first the board, then the processor, whose registers are
cleared if a start-up image lies over the cartridge. -/
def reset (console : Console) : Console :=
  let circuit := console.circuit.reset
  let core := Latched.reset ⟨⟨console.cpu, circuit⟩, console.core.enableDelayed⟩
  { console with
    core := if circuit.bootActive then core.powerOn else core
    pausedAt := none
    fault := none }

def load (console : Console) (image : ByteArray) : Except ImageError (CartridgeInfo × Console) :=
  match CartridgeUnit.ofImage image with
  | .error refusal => .error refusal
  | .ok cartridge =>
      .ok (cartridge.cartridge.info,
        (console.mapCircuit fun circuit => circuit.insertCartridge cartridge).reset)

def loadBoot (console : Console) (image : ByteArray) : Except ImageError Console :=
  match BootImage.ofBytes image with
  | .error refusal => .error refusal
  | .ok boot => .ok (console.mapCircuit fun circuit => circuit.insertBoot boot).reset

def resume (console : Console) : Console :=
  { console.mapCpu Cpu.wake with fault := none }

def setButton (console : Console) (button : Button) (held : Bool) : Console :=
  console.mapCircuit fun circuit => circuit.setButton button held

def addBreakpoint (console : Console) (address : UInt16) : Console :=
  if console.breakpoints.contains address then console
  else { console with breakpoints := Machine.insertAddress address console.breakpoints }

def removeBreakpoint (console : Console) (address : UInt16) : Console :=
  { console with breakpoints := console.breakpoints.erase address }

def step (console : Console) : Except DecodeError Timing × Console :=
  match console.fault with
  | some failure => (.error failure, console)
  | none =>
      match Circuit.instruction console.core with
      | (.error failure, core) =>
          (.error failure, { console with core := core, fault := some failure })
      | (.ok timing, core) => (.ok timing, { console with core := core })

theorem step_clocks_pos {console next : Console} {timing : Timing}
    (stepped : console.step = (.ok timing, next)) : 0 < timing.clocks := by
  rw [step] at stepped
  split at stepped
  · cases stepped
  · split at stepped
    · cases stepped
    · next executed =>
      cases stepped
      exact Circuit.instruction_clocks_pos executed

/-- Whether a frame ends before the next instruction because of a breakpoint. -/
def isAtBreakpoint (console : Console) : Bool :=
  console.pausedAt != some console.cpu.registers.pc && !console.cpu.halted &&
    console.breakpoints.contains console.cpu.registers.pc

def runUntil (budget : Nat) (console : Console) (elapsed : Nat) :
    Except DecodeError FrameOutcome × Console :=
  if elapsed < budget then
    if console.cpu.stopped then (.ok .stopped, console)
    else if console.isAtBreakpoint then
      (.ok (.breakpoint console.cpu.registers.pc),
        { console with pausedAt := some console.cpu.registers.pc })
    else
      match stepped : { console with pausedAt := none }.step with
      | (.error failure, console) => (.error failure, console)
      | (.ok timing, console) =>
          have := step_clocks_pos stepped
          runUntil budget console (elapsed + timing.clocks)
  else (.ok .completed, console)
termination_by budget - elapsed
decreasing_by omega

def runFrame (console : Console) : Except DecodeError FrameOutcome × Console :=
  if console.fault.isSome then (.ok .frozen, console)
  else runUntil console.config.cyclesPerFrame console 0

/-- The console after a call.  An image that is refused leaves it as it is. -/
def apply (console : Console) : Call -> Console
  | .runFrame => console.runFrame.2
  | .step => console.step.2
  | .addBreakpoint address => console.addBreakpoint address
  | .removeBreakpoint address => console.removeBreakpoint address
  | .setButton button held => console.setButton button held
  | .resume => console.resume
  | .reset => console.reset
  | .load image =>
      match console.load image with
      | .ok loaded => loaded.2
      | .error _ => console
  | .loadBoot image =>
      match console.loadBoot image with
      | .ok loaded => loaded
      | .error _ => console

/-- The console without a note of where it paused. -/
def unpaused (console : Console) : Console :=
  { console with pausedAt := none }

theorem runUntil_of_step {budget elapsed : Nat} {console next : Console}
    {answer : Except DecodeError Timing} (stepped : console.unpaused.step = (answer, next))
    (more : elapsed < budget) (running : console.cpu.stopped = false)
    (free : console.isAtBreakpoint = false) :
    runUntil budget console elapsed =
      match answer with
      | .error failure => (.error failure, next)
      | .ok timing => runUntil budget next (elapsed + timing.clocks) := by
  rw [runUntil, if_pos more, running, free]
  change (match same : console.unpaused.step with
    | (.error failure, console) => _
    | (.ok timing, console) => _) = _
  split <;> next same =>
    rw [stepped] at same
    cases same
    rfl

/-! ## What is kept follows from the rest -/

/-- The console that shows this and keeps what belongs to it. -/
def ofMachine (machine : Machine) (indices : IndexLine) (enableDelayed : Bool) : Console where
  core := ⟨(Circuit.view machine.config.logsSerial indices).wired machine.core, enableDelayed⟩
  config := machine.config
  breakpoints := machine.breakpoints
  pausedAt := machine.pausedAt
  fault := machine.fault

@[simp] theorem machine_ofMachine (machine : Machine) (indices : IndexLine) (enableDelayed : Bool) :
    (ofMachine machine indices enableDelayed).machine = machine :=
  Machine.ext (Wired.ext rfl (Circuit.board_ofBoard _ _ _)) rfl rfl rfl rfl

/-- The console that shows this and has just been turned on. -/
def fresh (machine : Machine) : Console :=
  ofMachine machine (Vector.replicate 160 0) false

theorem new_eq (config : Config) : new config = fresh (.new config) := by
  rw [new, Circuit.new_eq]
  rfl

/-- A reset leaves nothing of what a console keeps but whether it logs, and this is
what its owner has decided. -/
theorem reset_eq {console : Console} (whole : console.circuit.board.cartridge.Whole)
    (logs : console.circuit.serial.logsBytes = console.config.logsSerial) :
    console.reset = fresh console.machine.reset := by
  let board := console.circuit.board.reset
  let circuit := Circuit.ofBoard board console.config.logsSerial (Vector.replicate 160 0)
  let core := Latched.reset ⟨⟨console.cpu, circuit⟩, console.core.enableDelayed⟩
  have started : (if circuit.bootActive then core.powerOn else core) =
      ⟨⟨Machine.startingCpu board, circuit⟩, false⟩ := by
    change (if board.bootActive then _ else _) = _
    rw [Machine.startingCpu]
    split <;> rfl
  rw [reset, Circuit.reset_eq whole, logs, Machine.reset_eq]
  exact congrArg (fun core => Console.mk core console.config console.breakpoints none none) started

section Steps

variable (machine : Machine) (indices : IndexLine) (enableDelayed : Bool)

theorem exists_step_ofMachine :
    ∃ last leftover, (ofMachine machine indices enableDelayed).step =
      (machine.step.1, ofMachine machine.step.2 last leftover) := by
  rcases machine with ⟨core, config, breakpoints, pausedAt, fault⟩
  rw [step, Machine.step]
  cases fault with
  | some failure => exact ⟨indices, enableDelayed, rfl⟩
  | none =>
      rcases Circuit.exists_instruction_view config.logsSerial indices core enableDelayed with
        ⟨last, leftover, same⟩
      refine ⟨last, leftover, ?_⟩
      simp only [ofMachine, same]
      rcases core.instruction with ⟨answer, executed⟩
      cases answer <;> rfl

theorem exists_unpaused_step_ofMachine {machine next : Machine} {answer : Except DecodeError Timing}
    (indices : IndexLine) (enableDelayed : Bool)
    (stepped : machine.unpaused.step = (answer, next)) :
    ∃ last leftover, (ofMachine machine indices enableDelayed).unpaused.step =
      (answer, ofMachine next last leftover) := by
  rcases exists_step_ofMachine machine.unpaused indices enableDelayed with ⟨last, leftover, same⟩
  rw [stepped] at same
  exact ⟨last, leftover, same⟩

theorem exists_runUntil_ofMachine (budget elapsed : Nat) :
    ∃ last leftover, runUntil budget (ofMachine machine indices enableDelayed) elapsed =
      ((machine.runUntil budget elapsed).1,
        ofMachine (machine.runUntil budget elapsed).2 last leftover) := by
  induction machine, elapsed using Machine.runUntil.induct budget
    generalizing indices enableDelayed with
  | case1 machine elapsed more stopped =>
      rw [runUntil, Machine.runUntil, if_pos more, if_pos more, if_pos stopped]
      exact ⟨indices, enableDelayed, if_pos stopped⟩
  | case2 machine elapsed more running pauses =>
      rw [runUntil, Machine.runUntil, if_pos more, if_pos more, if_neg running, if_pos pauses]
      exact ⟨indices, enableDelayed, (if_neg running).trans (if_pos pauses)⟩
  | case3 machine elapsed more running free failure next stepped =>
      have moves := Bool.eq_false_iff.mpr running
      have passes := Bool.eq_false_iff.mpr free
      rcases exists_unpaused_step_ofMachine indices enableDelayed stepped with
        ⟨last, leftover, same⟩
      rw [runUntil_of_step same more moves passes,
        Machine.runUntil_of_step more moves passes stepped]
      exact ⟨last, leftover, rfl⟩
  | case4 machine elapsed more running free timing next stepped positive inductionHypothesis =>
      have moves := Bool.eq_false_iff.mpr running
      have passes := Bool.eq_false_iff.mpr free
      rcases exists_unpaused_step_ofMachine indices enableDelayed stepped with
        ⟨between, remainder, same⟩
      rw [runUntil_of_step same more moves passes,
        Machine.runUntil_of_step more moves passes stepped]
      exact inductionHypothesis between remainder
  | case5 machine elapsed spent =>
      rw [runUntil, Machine.runUntil, if_neg spent, if_neg spent]
      exact ⟨indices, enableDelayed, rfl⟩

theorem exists_runFrame_ofMachine :
    ∃ last leftover, (ofMachine machine indices enableDelayed).runFrame =
      (machine.runFrame.1, ofMachine machine.runFrame.2 last leftover) := by
  rw [runFrame, Machine.runFrame, Machine.isFrozen]
  change ∃ last leftover, (if machine.fault.isSome then _ else _) = _
  split
  · exact ⟨indices, enableDelayed, rfl⟩
  · exact exists_runUntil_ofMachine machine indices enableDelayed _ 0

end Steps

end Console

end Dmg
