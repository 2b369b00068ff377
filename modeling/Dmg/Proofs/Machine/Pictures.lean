import Dmg.Proofs.Board.Actions
import Dmg.Proofs.Machine.Clocks
import Dmg.Proofs.Machine.Halt

/-!
# The pictures of a frame

A frame lets as much time pass as a picture takes, and a little more, because its last
instruction is counted whole.  What is too much is not taken off the next frame, so
frames and pictures drift against each other.

All the same no frame goes by without a picture as long as the display is on, and
frames that follow each other show hardly more pictures than there are frames.
-/

namespace Dmg

namespace Machine

/-! ## What calls do to the board -/

/-- What a call for an instruction does to the board. -/
def stepActions (machine : Machine) : List Board.Action :=
  if machine.isFrozen then [] else machine.core.actions

/-- What a number of calls do to the board, one after the other. -/
def actionsOver (machine : Machine) : Nat -> List Board.Action
  | 0 => []
  | count + 1 => machine.stepActions ++ machine.step.2.actionsOver count

/-- What the calls of a frame do to the board. -/
def frameActions (machine : Machine) : List Board.Action :=
  machine.frameCalls.flatMap stepActions

/-- What happens to the video unit during a frame. -/
def frameMoments (machine : Machine) : List Video.Moment :=
  machine.board.video.trail (machine.board.videoActions machine.frameActions)

theorem board_step (machine : Machine) :
    machine.step.2.board = machine.stepActions.foldl Board.act machine.board := by
  have executed := machine.core.memory_instruction
  rw [step, stepActions, isFrozen]
  cases machine.fault with
  | some failure => rfl
  | none =>
      change _ = machine.core.actions.foldl Board.act machine.core.memory
      rw [← executed]
      rcases machine.core.instruction with ⟨answer, core⟩
      cases answer <;> rfl

/-- The actions of a call take the time that the call answers. -/
theorem elapsed_stepActions (machine : Machine) :
    Board.elapsed machine.stepActions = machine.stepClocks := by
  have executed := machine.core.elapsed_actions
  rw [stepClocks, step, stepActions, isFrozen]
  cases machine.fault with
  | some failure => rfl
  | none =>
      change Board.elapsed machine.core.actions = _
      rw [executed]
      rcases machine.core.instruction with ⟨answer, core⟩
      cases answer <;> rfl

theorem isProgram_of_mem_stepActions {machine : Machine} {action : Board.Action}
    (member : action ∈ machine.stepActions) : action.isProgram = true := by
  rw [stepActions] at member
  split at member
  · cases member
  · exact machine.core.isProgram_of_mem_actions member

theorem board_afterSteps (machine : Machine) (count : Nat) :
    (machine.afterSteps count).board =
      (machine.actionsOver count).foldl Board.act machine.board := by
  induction count generalizing machine with
  | zero => rfl
  | succ count inductionHypothesis =>
      rw [afterSteps, inductionHypothesis, board_step, actionsOver, List.foldl_append]

theorem elapsed_actionsOver (machine : Machine) (count : Nat) :
    Board.elapsed (machine.actionsOver count) = machine.spent count := by
  induction count generalizing machine with
  | zero => rfl
  | succ count inductionHypothesis =>
      have first := machine.elapsed_stepActions
      have rest := inductionHypothesis machine.step.2
      rw [Board.elapsed] at first rest
      rw [actionsOver, Board.elapsed, total_append, first, rest]
      rfl

theorem flatMap_stepActions (machine : Machine) (count : Nat) :
    ((List.range count).map machine.afterSteps).flatMap stepActions =
      machine.actionsOver count := by
  induction count generalizing machine with
  | zero => rfl
  | succ count inductionHypothesis =>
      rw [List.range_succ_eq_map, List.map_cons, List.map_map, List.flatMap_cons]
      exact congrArg (machine.stepActions ++ ·) (inductionHypothesis machine.step.2)

/-! ## What a frame does to the board -/

theorem frameActions_eq (machine : Machine) :
    machine.frameActions = machine.unpaused.actionsOver machine.frameCalls.length := by
  rw [frameActions, ← flatMap_stepActions, ← machine.frameCalls_eq.1]

theorem board_runFrame (machine : Machine) :
    machine.runFrame.2.board = machine.frameActions.foldl Board.act machine.board := by
  change machine.runFrame.2.unpaused.board = List.foldl Board.act machine.unpaused.board _
  rw [machine.frameCalls_eq.2, board_afterSteps, frameActions_eq]

theorem elapsed_frameActions (machine : Machine) :
    Board.elapsed machine.frameActions = machine.spent machine.frameCalls.length := by
  rw [frameActions_eq, elapsed_actionsOver, spent_unpaused]

theorem isProgram_of_mem_frameActions {machine : Machine} {action : Board.Action}
    (member : action ∈ machine.frameActions) : action.isProgram = true := by
  rcases List.mem_flatMap.mp member with ⟨called, -, done⟩
  exact isProgram_of_mem_stepActions done

theorem config_runFrame (machine : Machine) : machine.runFrame.2.config = machine.config :=
  (congrArg Machine.config machine.reset_runFrame :)

/-! ## How long a frame takes -/

theorem four_dvd_stepClocks (machine : Machine) : 4 ∣ machine.stepClocks := by
  rcases stepped : machine.step with ⟨answer, next⟩
  cases answer with
  | ok timing =>
      rw [stepClocks_of_ok stepped]
      exact (timed_of_step stepped).whole
  | error failure =>
      rw [stepClocks_of_error stepped]
      exact Nat.dvd_zero 4

theorem four_dvd_spent (machine : Machine) (count : Nat) : 4 ∣ machine.spent count := by
  induction count generalizing machine with
  | zero => exact Nat.dvd_zero 4
  | succ count inductionHypothesis =>
      exact Nat.dvd_add machine.four_dvd_stepClocks (inductionHypothesis machine.step.2)

/-- A frame that is not cut short, with the display on from its beginning to its
end. -/
structure Lit (machine : Machine) : Prop where
  completes : machine.runFrame.1 = .ok .completed
  on : machine.board.StaysOn machine.frameActions

/-- A frame for each picture takes as long as a picture, and at most nine machine cycles
more. -/
theorem Lit.spent {machine : Machine} (lit : machine.Lit)
    (budget : machine.config.cyclesPerFrame = 70224) :
    70224 <= machine.spent machine.frameCalls.length ∧
      machine.spent machine.frameCalls.length <= 70260 := by
  have healthy : machine.fault = none := by
    rcases machine.runFrame_cases with ⟨frozen, -⟩ | ⟨healthy, -⟩
    · have completes := lit.completes
      rw [frozen] at completes
      cases completes
    · exact healthy
  have frame := frameOf_frameCalls healthy
  have enough := frame.completed.mp lit.completes
  have bounded := frame.bounded
  have whole := machine.four_dvd_spent machine.frameCalls.length
  rw [budget] at enough bounded
  omega

/-- A frame is a span of the video unit. -/
theorem Lit.spans {machine : Machine} (lit : machine.Lit) (reached : machine.board.Reached) :
    Video.Spans machine.board.video machine.runFrame.2.board.video machine.frameMoments
      (machine.spent machine.frameCalls.length) := by
  have settled := reached.sound.video.settled
  have program : ∀ action ∈ machine.frameActions, action.isProgram = true :=
    fun _ member => isProgram_of_mem_frameActions member
  have spans := settled.spans_trail lit.on.first (lit.on.bright program)
  rw [Board.elapsed_videoActions, elapsed_frameActions] at spans
  rw [board_runFrame, Board.video_foldl_act]
  exact spans

/-! ## Frames that follow each other -/

def afterFrames (machine : Machine) : Nat -> Machine
  | 0 => machine
  | count + 1 => machine.runFrame.2.afterFrames count

/-- What happens to the video unit during a number of frames. -/
def momentsOver (machine : Machine) : Nat -> List Video.Moment
  | 0 => []
  | count + 1 => machine.frameMoments ++ machine.runFrame.2.momentsOver count

theorem afterFrames_reached {machine : Machine} (reached : machine.board.Reached)
    (count : Nat) : (machine.afterFrames count).board.Reached := by
  induction count generalizing machine with
  | zero => exact reached
  | succ count inductionHypothesis =>
      exact inductionHypothesis (board_runFrame_reached reached)

theorem config_afterFrames (machine : Machine) (count : Nat) :
    (machine.afterFrames count).config = machine.config := by
  induction count generalizing machine with
  | zero => rfl
  | succ count inductionHypothesis =>
      rw [afterFrames, inductionHypothesis, config_runFrame]

/-- Frames that follow each other are one span, as long as all of them. -/
theorem spans_of_lit {machine : Machine} (reached : machine.board.Reached)
    (budget : machine.config.cyclesPerFrame = 70224)
    (on : machine.board.video.control.isOn = true) {count : Nat}
    (lit : ∀ earlier, earlier < count -> (machine.afterFrames earlier).Lit) :
    ∃ length, 70224 * count <= length ∧ length <= 70260 * count ∧
      Video.Spans machine.board.video (machine.afterFrames count).board.video
        (machine.momentsOver count) length := by
  induction count generalizing machine with
  | zero => exact ⟨0, Nat.le_refl _, Nat.le_refl _, reached.sound.video.settled.spans_nil on⟩
  | succ count inductionHypothesis =>
      have first : machine.Lit := lit 0 (Nat.succ_pos count)
      have spans := first.spans reached
      have same : machine.runFrame.2.config.cyclesPerFrame = 70224 := by
        rw [config_runFrame, budget]
      rcases inductionHypothesis (board_runFrame_reached reached) same spans.on
        (fun earlier less => lit (earlier + 1) (Nat.succ_lt_succ less)) with
        ⟨length, least, most, others⟩
      rcases first.spent budget with ⟨enough, few⟩
      exact ⟨_, by omega, by omega, spans.append others⟩

/-! ## What a frame shows -/

/-- A frame shows one picture or two, each of which has just been composed. -/
structure ShowsPicture (machine : Machine) : Prop where
  /-- What happens to the video unit meanwhile. -/
  follows : Video.Follows machine.board.video machine.frameMoments machine.runFrame.2.board.video
  least : 1 <= Video.picturesShown machine.frameMoments
  most : Video.picturesShown machine.frameMoments <= 2
  /-- Some of the lines may have been drawn in an earlier frame. -/
  publishes : ∃ shades past, Video.Follows (.initial shades) past machine.board.video ∧
    ∀ early moment late, machine.frameMoments = early ++ moment :: late ->
      moment.entersVblank = true -> Video.Publishes (past ++ early) moment

theorem Lit.showsPicture {machine : Machine} (lit : machine.Lit) (reached : machine.board.Reached)
    (budget : machine.config.cyclesPerFrame = 70224) : machine.ShowsPicture := by
  have shown := (lit.spans reached).shown
  rcases lit.spent budget with ⟨enough, few⟩
  rw [Video.picturesUntil, Video.picturesUntil] at shown
  refine ⟨?_, by omega, by omega, ?_⟩
  · rw [board_runFrame, Board.video_foldl_act]
    exact Video.follows_trail _ _
  · rcases reached.sound.video.exists_publishes with ⟨shades, past, leads, publishes⟩
    exact ⟨shades, past, leads, fun early moment late => publishes _ early moment late⟩

/-- A frame for each picture that is not cut short shows one picture or two as long as
the display is on, and each of them has just been composed.  A number of such frames
show as many pictures as there are frames, or as many more as fit into what the frames
can take too long. -/
theorem frames_show_pictures {machine : Machine} (reached : machine.Reached)
    (budget : machine.config.cyclesPerFrame = Config.pictureCycles) {count : Nat}
    (lit : ∀ earlier, earlier < count -> (machine.afterFrames earlier).Lit) :
    (∀ earlier, earlier < count -> (machine.afterFrames earlier).ShowsPicture) ∧
      count <= Video.picturesShown (machine.momentsOver count) ∧
      Video.picturesShown (machine.momentsOver count) <= (70260 * count + 70223) / 70224 := by
  have start := reached.board
  constructor
  · intro earlier less
    have same : (machine.afterFrames earlier).config.cyclesPerFrame = 70224 := by
      rw [config_afterFrames, budget]
      rfl
    exact (lit earlier less).showsPicture (afterFrames_reached start earlier) same
  · cases count with
    | zero => exact ⟨Nat.le_refl _, Nat.zero_le _⟩
    | succ count =>
        have on := (lit 0 (Nat.succ_pos count)).on.first
        rcases spans_of_lit start budget on lit with ⟨length, least, most, spans⟩
        have shown := spans.shown
        rw [Video.picturesUntil, Video.picturesUntil] at shown
        omega

/-! ## A machine that waits for ever -/

theorem Waits.unpaused {machine : Machine} (waits : machine.Waits) : machine.unpaused.Waits :=
  ⟨waits.healthy, waits.halted, waits.running⟩

theorem Waits.isAtBreakpoint {machine : Machine} (waits : machine.Waits) :
    machine.isAtBreakpoint = false := by
  rw [Machine.isAtBreakpoint, waits.halted, Bool.not_true, Bool.and_false, Bool.false_and]

/-- A machine that waits while no request is permitted, with its display on. -/
structure Dozes (machine : Machine) : Prop where
  waits : machine.Waits
  forbidden : machine.board.interrupts.permissions = 0
  on : machine.board.video.control.isOn = true

theorem Dozes.unpaused {machine : Machine} (dozes : machine.Dozes) : machine.unpaused.Dozes :=
  ⟨dozes.waits.unpaused, dozes.forbidden, dozes.on⟩

theorem Dozes.quiet {machine : Machine} (dozes : machine.Dozes) :
    machine.core.atCheck.pending = 0 := by
  rw [Wired.atCheck_of_isIdle dozes.waits.isIdle]
  change machine.board.interrupts.permissions &&& _ &&& Interrupt.allMask = 0
  rw [dozes.forbidden, UInt8.zero_and, UInt8.zero_and]

theorem Dozes.stepActions {machine : Machine} (dozes : machine.Dozes) :
    machine.stepActions = [.advance Wired.idleTiming] := by
  have runs : machine.isFrozen = false := by
    rw [isFrozen, dozes.waits.healthy]
    rfl
  rw [Machine.stepActions, runs]
  exact Wired.actions_of_quiet dozes.waits.isIdle dozes.quiet

/-- Such a machine lets a machine cycle pass and dozes on. -/
theorem Dozes.step {machine : Machine} (dozes : machine.Dozes) :
    machine.step = (.ok Wired.idleTiming, machine.step.2) ∧ machine.step.2.Dozes := by
  have stepped := dozes.waits.step_of_quiet dozes.quiet
  rw [Wired.atCheck_of_isIdle dozes.waits.isIdle] at stepped
  rw [stepped]
  refine ⟨rfl, ⟨dozes.waits.healthy, dozes.waits.halted, dozes.waits.running⟩, dozes.forbidden, ?_⟩
  exact (machine.board.isOn_advance Wired.idleTiming).trans dozes.on

/-- Its frame is not cut short. -/
theorem Goes.completed_of_dozes {budget elapsed : Nat} {machine last : Machine}
    {calls : List Machine} {outcome : Except DecodeError FrameOutcome}
    (goes : Goes budget machine elapsed calls outcome last) (dozes : machine.Dozes) :
    outcome = .ok .completed ∧ last.Dozes ∧ ∀ called ∈ calls, called.Dozes := by
  induction goes with
  | completed spent => exact ⟨rfl, dozes, fun _ member => nomatch member⟩
  | stopped more stopped => exact absurd (dozes.waits.running.symm.trans stopped) Bool.false_ne_true
  | paused more running pauses =>
      exact absurd (dozes.waits.isAtBreakpoint.symm.trans pauses) Bool.false_ne_true
  | failed more running free stepped =>
      have answer := dozes.unpaused.step.1
      rw [stepped] at answer
      cases answer
  | called more running free stepped rest inductionHypothesis =>
      have after := dozes.unpaused.step.2
      rw [stepped] at after
      rcases inductionHypothesis after with ⟨completes, last, others⟩
      exact ⟨completes, last, List.forall_mem_cons.mpr ⟨dozes.unpaused, others⟩⟩

theorem Dozes.lit {machine : Machine} (dozes : machine.Dozes) :
    machine.Lit ∧ machine.runFrame.2.Dozes := by
  rcases (goes_runFrame dozes.waits.healthy).completed_of_dozes dozes with
    ⟨completes, last, calls⟩
  refine ⟨⟨completes, Board.staysOn_of_advance dozes.on fun action member => ?_⟩, last⟩
  rcases List.mem_flatMap.mp member with ⟨called, among, done⟩
  rw [(calls called among).stepActions] at done
  exact ⟨_, List.mem_singleton.mp done⟩

theorem Dozes.lit_afterFrames {machine : Machine} (dozes : machine.Dozes) (count : Nat) :
    (machine.afterFrames count).Lit := by
  induction count generalizing machine with
  | zero => exact dozes.lit.1
  | succ count inductionHypothesis => exact inductionHypothesis dozes.lit.2

/-- A new machine that has been made to wait. -/
def dozing : Machine :=
  (new .standard).act (.setCpu { Cpu.afterBoot with halted := true })

/-- A thousand of its frames show a thousand pictures, or one more. -/
theorem dozing_shows_pictures :
    dozing.Reached ∧ dozing.config.cyclesPerFrame = Config.pictureCycles ∧
      1000 <= Video.picturesShown (dozing.momentsOver 1000) ∧
      Video.picturesShown (dozing.momentsOver 1000) <= 1001 := by
  have reached : dozing.Reached := ⟨.standard, [_], rfl⟩
  have dozes : dozing.Dozes := ⟨⟨rfl, rfl, rfl⟩, rfl, rfl⟩
  rcases frames_show_pictures reached rfl fun earlier (_ : earlier < 1000) =>
    dozes.lit_afterFrames earlier with ⟨-, least, most⟩
  exact ⟨reached, rfl, least, most⟩

end Machine

end Dmg
