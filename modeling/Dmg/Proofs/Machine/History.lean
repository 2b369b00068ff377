import Dmg.Proofs.Machine.Frame

/-!
# The history of a machine

The owner of a machine runs it by frames or by instructions, edits breakpoints,
holds buttons, and turns the power off and on.  The history of a machine is what
its frames did meanwhile: the states in which they called for an instruction, and
the addresses at which they paused.

An owner who does nothing but run frames and edit breakpoints sees the states
that the machine goes through anyway.
-/

namespace Dmg

/-- What the owner of a machine asks of it. -/
inductive Call where
  | runFrame
  | step
  | addBreakpoint (address : UInt16)
  | removeBreakpoint (address : UInt16)
  | setButton (button : Button) (held : Bool)
  | resume
  | reset
  | load (image : ByteArray)
  | loadBoot (image : ByteArray)

namespace Call

/-- Whether a call runs a frame or edits breakpoints. -/
def isDebugging : Call -> Bool
  | .runFrame | .addBreakpoint _ | .removeBreakpoint _ => true
  | _ => false

end Call

/-- What a frame does that can be seen from outside. -/
inductive Event where
  /-- It calls for an instruction. -/
  | calls (machine : Machine)
  /-- It pauses before the instruction at an address. -/
  | pauses (address : UInt16)

namespace Event

/-- The processor and its board when a frame calls for an instruction. -/
def core? : Event -> Option (Wired Board)
  | .calls machine => some machine.core
  | .pauses _ => none

theorem filterMap_calls (machines : List Machine) :
    (machines.map calls).filterMap core? = machines.map Machine.core := by
  induction machines with
  | nil => rfl
  | cons machine machines inductionHypothesis =>
      exact congrArg (machine.core :: ·) inductionHypothesis

end Event

namespace FrameOutcome

/-- What a frame that ended in this way did last. -/
def pauses : Except DecodeError FrameOutcome -> List Event
  | .ok (.breakpoint address) => [.pauses address]
  | _ => []

theorem filterMap_pauses (outcome : Except DecodeError FrameOutcome) :
    (pauses outcome).filterMap Event.core? = [] := by
  unfold pauses
  split <;> rfl

end FrameOutcome

namespace Machine

/-- The machine after a call.  An image that is refused leaves it as it is. -/
def apply (machine : Machine) : Call -> Machine
  | .runFrame => machine.runFrame.2
  | .step => machine.step.2
  | .addBreakpoint address => (machine.addBreakpoint address).2
  | .removeBreakpoint address => (machine.removeBreakpoint address).2
  | .setButton button held => machine.setButton button held
  | .resume => machine.resume
  | .reset => machine.reset
  | .load image =>
      match machine.load image with
      | .ok loaded => loaded.2
      | .error _ => machine
  | .loadBoot image =>
      match machine.loadBoot image with
      | .ok loaded => loaded
      | .error _ => machine

/-- What the frame of a call does, if it runs one. -/
def events (machine : Machine) : Call -> List Event
  | .runFrame => machine.frameCalls.map .calls ++ FrameOutcome.pauses machine.runFrame.1
  | _ => []

/-- What the frames of some calls do, one after the other. -/
def history (machine : Machine) : List Call -> List Event
  | [] => []
  | call :: calls => machine.events call ++ (machine.apply call).history calls

/-- The processor and its board between instructions, while calls are applied. -/
def visited (machine : Machine) (calls : List Call) : List (Wired Board) :=
  (machine.history calls).filterMap Event.core? ++ [(calls.foldl apply machine).core]

/-- The machines that are called for an instruction while a call is applied. -/
def called (machine : Machine) : Call -> List Machine
  | .runFrame => machine.frameCalls
  | .step => [machine]
  | _ => []

/-- The machines that are called for an instruction while some calls are applied, one after
the other. -/
def calledOver (machine : Machine) : List Call -> List Machine
  | [] => []
  | call :: calls => machine.called call ++ (machine.apply call).calledOver calls

/-! ## Frames and breakpoints -/

theorem addBreakpoint_eq_steered (machine : Machine) (address : UInt16) :
    (machine.addBreakpoint address).2 =
      machine.steered (machine.addBreakpoint address).2.breakpoints machine.pausedAt := by
  rw [addBreakpoint]
  split <;> rfl

def plain (machine : Machine) : Machine :=
  machine.steered [] none

/-- What a machine without breakpoints goes through in a number of calls for an
instruction. -/
def states (machine : Machine) (count : Nat) : List (Wired Board) :=
  (List.range count).map fun earlier => (machine.plain.afterSteps earlier).core

theorem states_add (machine : Machine) (early late : Nat) :
    machine.states (early + late) =
      machine.states early ++ (List.range late).map fun later =>
        ((machine.plain.afterSteps early).afterSteps later).core := by
  rw [states, List.range_add, List.map_append, List.map_map]
  congr 1
  apply List.map_congr_left
  intro later _
  rw [← afterSteps_add]
  rfl

theorem states_succ (machine : Machine) (count : Nat) :
    machine.states (count + 1) =
      machine.states count ++ [(machine.plain.afterSteps count).core] := by
  rw [states, List.range_succ, List.map_append]
  rfl

/-- A frame takes the machine along the states that it goes through anyway, and
an edit of the breakpoints leaves it where it is. -/
theorem exists_states_of_isDebugging (machine : Machine) {call : Call}
    (debugging : call.isDebugging = true) :
    ∃ count, (machine.events call).filterMap Event.core? = machine.states count ∧
      (machine.apply call).plain = machine.plain.afterSteps count := by
  cases call with
  | runFrame =>
      rcases machine.frameCalls_eq with ⟨calls, last⟩
      refine ⟨machine.frameCalls.length, ?_, ?_⟩
      · rw [events, List.filterMap_append, FrameOutcome.filterMap_pauses, List.append_nil,
          Event.filterMap_calls, calls, List.map_map, List.length_map, List.length_range]
        apply List.map_congr_left
        intro earlier _
        change (machine.unpaused.afterSteps earlier).core = (machine.plain.afterSteps earlier).core
        rw [afterSteps_unpaused, plain, afterSteps_steered]
        rfl
      · change machine.runFrame.2.unpaused.plain = _
        rw [last, afterSteps_unpaused, plain, plain, afterSteps_steered]
        rfl
  | addBreakpoint address =>
      refine ⟨0, rfl, ?_⟩
      rw [apply, addBreakpoint_eq_steered]
      rfl
  | removeBreakpoint address => exact ⟨0, rfl, rfl⟩
  | _ => cases debugging

theorem exists_states_of_debugging (machine : Machine) (calls : List Call)
    (debugging : ∀ call ∈ calls, call.isDebugging = true) :
    ∃ count, (machine.history calls).filterMap Event.core? = machine.states count ∧
      (calls.foldl apply machine).plain = machine.plain.afterSteps count := by
  induction calls generalizing machine with
  | nil => exact ⟨0, rfl, rfl⟩
  | cons call calls inductionHypothesis =>
      rcases List.forall_mem_cons.mp debugging with ⟨first, others⟩
      rcases machine.exists_states_of_isDebugging first with ⟨early, seen, reached⟩
      rcases inductionHypothesis (machine.apply call) others with ⟨late, later, last⟩
      refine ⟨early + late, ?_, ?_⟩
      · rw [history, List.filterMap_append, seen, later, states_add, ← reached]
        rfl
      · rw [List.foldl_cons, last, reached, afterSteps_add]

/-- A frame is a number of calls for an instruction, as many as its clock cycles
and its breakpoints let it make.  So frames and breakpoints show their owner
what the program does anyway. -/
theorem frames_follow_program (machine : Machine) (healthy : machine.fault = none)
    (fits : machine.config.cyclesPerFrame <= UInt32.size - 40) :
    (∃ count, machine.FrameOf count ∧ machine.spent count < UInt32.size) ∧
      ∀ calls : List Call, (∀ call ∈ calls, call.isDebugging = true) ->
        ∃ count, machine.visited calls = machine.states (count + 1) := by
  constructor
  · have frame := frameOf_frameCalls healthy
    exact ⟨_, frame, Nat.lt_of_lt_of_le frame.bounded (Nat.add_le_of_le_sub (by decide) fits)⟩
  · intro calls debugging
    rcases machine.exists_states_of_debugging calls debugging with ⟨count, seen, reached⟩
    refine ⟨count, ?_⟩
    have last : (calls.foldl apply machine).core = (machine.plain.afterSteps count).core :=
      (congrArg Machine.core reached :)
    rw [visited, seen, last]
    exact (machine.states_succ count).symm

/-- Two frames with a breakpoint in the way of the first one. -/
theorem standard_follows_program :
    (new .standard).fault = none ∧ (new .standard).config.cyclesPerFrame <= UInt32.size - 40 ∧
      (∃ count, (new .standard).FrameOf count ∧ (new .standard).spent count < UInt32.size) ∧
      ∃ count,
        (new .standard).visited
            [.addBreakpoint 0x0100, .runFrame, .removeBreakpoint 0x0100, .runFrame] =
          (new .standard).states (count + 1) := by
  have healthy : (new .standard).fault = none := rfl
  have fits : (new .standard).config.cyclesPerFrame <= UInt32.size - 40 := by decide
  rcases frames_follow_program (new .standard) healthy fits with ⟨frame, debugged⟩
  exact ⟨healthy, fits, frame, debugged _ (by decide)⟩

end Machine

end Dmg
