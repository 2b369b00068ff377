import Dmg.Proofs.Board.Reached
import Dmg.Proofs.Board.Spans
import Dmg.Proofs.Video.Pictures

/-!
# What an instruction does to the board

An instruction does one thing after the other to the board: it writes, lets time
pass, and writes again if an interrupt is dispatched.  Each of these does something to
the video unit, or nothing.  Put in their order, they say through which states the
board and the unit go, and not only where they arrive.
-/

namespace Dmg

namespace Board

/-! ## What reaches the video unit -/

/-- What a transfer does to the video unit: it stores the bytes of a page one after the
other. -/
def transferActions (page : UInt8) : List SpriteOffset -> Board -> List Video.Action
  | [], _ => []
  | offset :: offsets, board =>
      .command (.writeOam offset (board.read (Word.ofBytes page (UInt8.ofNat offset.val)))) ::
        transferActions page offsets (transferByte page board offset)

/-- What a store in a place does to the video unit. -/
def storeActions (board : Board) (location : Location) (byte : UInt8) : List Video.Action :=
  match location with
  | .videoMemory offset => [.command (.writeVram offset byte)]
  | .spriteMemory offset => [.command (.writeOam offset byte)]
  | .video register => [.command (.writeRegister register byte)]
  | .transfer =>
      transferActions byte (List.finRange 160) { board with transferPage := byte }
  | _ => []

/-- What an action does to the video unit. -/
def actionsOf (board : Board) : Action -> List Video.Action
  | .write address byte => board.storeActions (.ofAddress address) byte
  | .advance timing => [.step timing.clocks]
  | .reset => [.command .reset]
  | .setButton .. | .insert .. | .insertBoot .. => []

/-- What one action after the other does to the video unit. -/
def videoActions (board : Board) : List Action -> List Video.Action
  | [] => []
  | action :: actions => board.actionsOf action ++ (board.act action).videoActions actions

theorem video_transferActions (page : UInt8) (offsets : List SpriteOffset) (board : Board) :
    (offsets.foldl (transferByte page) board).video =
      board.video.actAll (transferActions page offsets board) := by
  induction offsets generalizing board with
  | nil => rfl
  | cons offset offsets inductionHypothesis =>
      exact inductionHypothesis (transferByte page board offset)

theorem video_act (board : Board) (action : Action) :
    (board.act action).video = board.video.actAll (board.actionsOf action) := by
  cases action with
  | write address byte =>
      change (board.writeLocation (.ofAddress address) byte).video =
        board.video.actAll (board.storeActions (.ofAddress address) byte)
      cases Location.ofAddress address with
      | transfer =>
          exact video_transferActions byte _ { board with transferPage := byte }
      | _ => rfl
  | insert image =>
      rw [act]
      split <;> rfl
  | insertBoot image =>
      rw [act]
      split <;> rfl
  | _ => rfl

theorem video_foldl_act (board : Board) (actions : List Action) :
    (actions.foldl act board).video = board.video.actAll (board.videoActions actions) := by
  induction actions generalizing board with
  | nil => rfl
  | cons action actions inductionHypothesis =>
      rw [List.foldl_cons, inductionHypothesis, video_act, videoActions, Video.actAll,
        Video.actAll, Video.actAll, List.foldl_append]

/-! ## Time and the display -/

namespace Action

/-- The clock cycles that an action lets pass. -/
def cycles : Action -> Nat
  | .advance timing => timing.clocks
  | _ => 0

/-- Whether a program brings an action about, and not the owner of the machine. -/
def isProgram : Action -> Bool
  | .write .. | .advance .. => true
  | _ => false

end Action

/-- The clock cycles that some actions let pass together. -/
def elapsed (actions : List Action) : Nat :=
  total Action.cycles actions

/-- The display is on before some actions, between them and behind them. -/
def StaysOn (board : Board) (actions : List Action) : Prop :=
  ∀ early, early <+: actions -> (early.foldl act board).read 0xFF40 &&& 0x80 ≠ 0

theorem elapsed_transferActions (page : UInt8) (offsets : List SpriteOffset) (board : Board) :
    Video.elapsed (transferActions page offsets board) = 0 := by
  induction offsets generalizing board with
  | nil => rfl
  | cons offset offsets inductionHypothesis =>
      exact (Nat.zero_add _).trans (inductionHypothesis (transferByte page board offset))

theorem elapsed_actionsOf (board : Board) (action : Action) :
    Video.elapsed (board.actionsOf action) = action.cycles := by
  cases action with
  | write address byte =>
      change Video.elapsed (board.storeActions (.ofAddress address) byte) = 0
      cases Location.ofAddress address with
      | transfer => exact elapsed_transferActions byte _ _
      | _ => rfl
  | _ => rfl

theorem elapsed_videoActions (board : Board) (actions : List Action) :
    Video.elapsed (board.videoActions actions) = elapsed actions := by
  induction actions generalizing board with
  | nil => rfl
  | cons action actions inductionHypothesis =>
      have first := board.elapsed_actionsOf action
      have rest := inductionHypothesis (board.act action)
      rw [Video.elapsed] at first rest
      rw [videoActions, Video.elapsed, total_append, first, rest]
      rfl

theorem StaysOn.first {board : Board} {actions : List Action} (on : board.StaysOn actions) :
    board.video.control.isOn = true :=
  bne_iff_ne.mpr (on [] List.nil_prefix)

theorem StaysOn.tail {board : Board} {action : Action} {actions : List Action}
    (on : board.StaysOn (action :: actions)) : (board.act action).StaysOn actions :=
  fun early begins => on (action :: early) (List.cons_prefix_cons.mpr ⟨rfl, begins⟩)

/-- Time alone leaves the display on. -/
theorem staysOn_of_advance {board : Board} {actions : List Action}
    (on : board.video.control.isOn = true)
    (advances : ∀ action ∈ actions, ∃ timing, action = .advance timing) :
    board.StaysOn actions := by
  induction actions generalizing board with
  | nil =>
      intro early begins
      rw [List.prefix_nil.mp begins]
      exact bne_iff_ne.mp on
  | cons action actions inductionHypothesis =>
      rcases List.forall_mem_cons.mp advances with ⟨⟨timing, rfl⟩, others⟩
      have later : (board.act (.advance timing)).video.control.isOn = true :=
        (board.isOn_advance timing).trans on
      intro early begins
      cases early with
      | nil => exact bne_iff_ne.mp on
      | cons first early =>
          rcases List.cons_prefix_cons.mp begins with ⟨rfl, rest⟩
          exact inductionHypothesis later others early rest

/-- The bytes that a transfer stores do not make the screen white. -/
theorem whitens_of_mem_transferActions {page : UInt8} {offsets : List SpriteOffset}
    {board : Board} {video : Video} {moment : Video.Moment}
    (member : moment ∈ video.trail (transferActions page offsets board)) :
    moment.whitens = false := by
  induction offsets generalizing board video with
  | nil => cases member
  | cons offset offsets inductionHypothesis =>
      rcases List.mem_cons.mp member with rfl | later
      · rfl
      · exact inductionHypothesis later

/-- What a program does makes the screen white only if it switches the display off. -/
theorem whitens_of_mem_actionsOf {board : Board} {action : Action}
    (program : action.isProgram = true) (on : (board.act action).video.control.isOn = true)
    {moment : Video.Moment} (member : moment ∈ board.video.trail (board.actionsOf action)) :
    moment.whitens = false := by
  cases action with
  | advance timing =>
      rcases List.mem_append.mp member with spanned | none
      · exact Video.whitens_of_mem_step spanned
      · cases none
  | write address byte =>
      change (board.writeLocation (.ofAddress address) byte).video.control.isOn = true at on
      change moment ∈ board.video.trail (board.storeActions (.ofAddress address) byte) at member
      cases location : Location.ofAddress address with
      | transfer =>
          rw [location] at member
          exact whitens_of_mem_transferActions member
      | videoMemory offset =>
          rw [location] at member
          rw [List.mem_singleton.mp member]
          rfl
      | spriteMemory offset =>
          rw [location] at member
          rw [List.mem_singleton.mp member]
          rfl
      | video register =>
          rw [location] at member on
          rw [List.mem_singleton.mp member]
          exact Video.not_clears_of_isOn on
      | _ =>
          rw [location] at member
          cases member
  | _ => cases program

/-- A program that leaves the display on never makes the screen white. -/
theorem StaysOn.bright {board : Board} {actions : List Action} (on : board.StaysOn actions)
    (program : ∀ action ∈ actions, action.isProgram = true) :
    ∀ moment ∈ board.video.trail (board.videoActions actions), moment.whitens = false := by
  induction actions generalizing board with
  | nil => exact fun _ member => nomatch member
  | cons action actions inductionHypothesis =>
      rcases List.forall_mem_cons.mp program with ⟨first, others⟩
      intro moment member
      rw [videoActions, Video.trail_append, ← video_act] at member
      rcases List.mem_append.mp member with now | later
      · exact whitens_of_mem_actionsOf first on.tail.first now
      · exact inductionHypothesis on.tail others moment later

end Board

namespace Wired

/-! ## The actions of an instruction -/

/-- A write of the processor as something that happens to the board. -/
def writing (write : UInt16 × UInt8) : Board.Action :=
  .write write.1 write.2

def serviceWrites (wired : Wired Board) : List (UInt16 × UInt8) :=
  wired.recorded.serviceInterrupts.2.memory.writes

/-- What the look for requests does to the board. -/
def serviceActions (wired : Wired Board) : List Board.Action :=
  wired.serviceWrites.map writing ++
    match wired.serviceInterrupts.1 with
    | none => []
    | some dispatch => [.advance dispatch]

/-- What an instruction does to the board. -/
def actions (wired : Wired Board) : List Board.Action :=
  wired.stepWrites.map writing ++
    match wired.step with
    | (.error _, _) => []
    | (.ok timing, stepped) => .advance timing :: (stepped.advance timing).serviceActions

/-- A recorded board has come from where it was by the writes of the record. -/
def writesInvariant (board : Board) : BusInvariant (Recorded Board) where
  holds recorded := recorded.memory = (recorded.writes.map writing).foldl Board.act board
  read_holds := by
    intro recorded address holds
    have same : (Bus.read recorded address).2.writes = recorded.writes := by
      change ((Access.read address _ :: recorded.accesses).reverse.filterMap Access.written?) = _
      rw [List.reverse_cons, List.filterMap_append]
      exact List.append_nil _
    rw [same]
    exact holds
  write_holds := by
    intro recorded address byte holds
    have longer : (Bus.write recorded address byte).writes =
        recorded.writes ++ [(address, byte)] := by
      change ((Access.write address byte :: recorded.accesses).reverse.filterMap
        Access.written?) = _
      rw [List.reverse_cons, List.filterMap_append]
      rfl
    rw [longer, List.map_append, List.foldl_append, ← holds]
    rfl

section Instruction

variable (wired : Wired Board)

theorem memory_step :
    wired.step.2.memory = (wired.stepWrites.map writing).foldl Board.act wired.memory := by
  have start : (writesInvariant wired.memory).holds wired.recorded.memory := rfl
  rw [step_recorded]
  exact (writesInvariant wired.memory).step_holds start

theorem memory_serviceInterrupts :
    wired.serviceInterrupts.2.memory =
      (wired.serviceWrites.map writing).foldl Board.act wired.memory := by
  have start : (writesInvariant wired.memory).holds wired.recorded.memory := rfl
  have seen : wired.serviceInterrupts = _ :=
    Recorded.view.serviceInterrupts_wired wired.recorded
  rw [seen]
  exact (writesInvariant wired.memory).serviceInterrupts_holds start

theorem memory_settleInterrupts (timing : Timing) :
    (wired.settleInterrupts timing).2.memory =
      wired.serviceActions.foldl Board.act wired.memory := by
  have written := wired.memory_serviceInterrupts
  rw [settleInterrupts, serviceActions, List.foldl_append, ← written]
  rcases wired.serviceInterrupts with ⟨dispatch, checked⟩
  cases dispatch <;> rfl

/-- The actions of an instruction lead to the board that it leaves behind. -/
theorem memory_instruction :
    wired.instruction.2.memory = wired.actions.foldl Board.act wired.memory := by
  have written := wired.memory_step
  rw [instruction, actions, List.foldl_append, ← written]
  rcases wired.step with ⟨answer, stepped⟩
  cases answer with
  | error failure => rfl
  | ok timing => exact memory_settleInterrupts (stepped.advance timing) timing

/-- Writes take no time by themselves. -/
theorem elapsed_append_writing (writes : List (UInt16 × UInt8)) (actions : List Board.Action) :
    Board.elapsed (writes.map writing ++ actions) = Board.elapsed actions := by
  induction writes with
  | nil => rfl
  | cons write writes inductionHypothesis => exact (Nat.zero_add _).trans inductionHypothesis

/-- The actions of an instruction take the time that it answers. -/
theorem elapsed_actions :
    Board.elapsed wired.actions =
      match wired.instruction.1 with
      | .error _ => 0
      | .ok timing => timing.clocks := by
  rw [instruction, actions, elapsed_append_writing]
  rcases wired.step with ⟨answer, stepped⟩
  cases answer with
  | error failure => rfl
  | ok timing =>
      change timing.clocks + Board.elapsed (stepped.advance timing).serviceActions =
        ((stepped.advance timing).settleInterrupts timing).1.clocks
      rw [serviceActions, settleInterrupts, elapsed_append_writing]
      rcases (stepped.advance timing).serviceInterrupts with ⟨dispatch, checked⟩
      cases dispatch <;> rfl

theorem isProgram_writing {writes : List (UInt16 × UInt8)} {action : Board.Action}
    (member : action ∈ writes.map writing) : action.isProgram = true := by
  rcases List.mem_map.mp member with ⟨write, -, rfl⟩
  rfl

theorem isProgram_of_mem_serviceActions {action : Board.Action}
    (member : action ∈ wired.serviceActions) : action.isProgram = true := by
  rcases List.mem_append.mp member with written | spent
  · exact isProgram_writing written
  · split at spent
    · cases spent
    · rw [List.mem_singleton.mp spent]
      rfl

theorem isProgram_of_mem_actions {action : Board.Action} (member : action ∈ wired.actions) :
    action.isProgram = true := by
  rcases List.mem_append.mp member with written | spent
  · exact isProgram_writing written
  · split at spent
    · cases spent
    · rcases List.mem_cons.mp spent with rfl | served
      · rfl
      · exact isProgram_of_mem_serviceActions _ served

/-- A processor that waits and finds no request lets time pass and does nothing else. -/
theorem actions_of_quiet {wired : Wired Board} (idle : wired.cpu.isIdle = true)
    (quiet : wired.atCheck.pending = 0) : wired.actions = [.advance idleTiming] := by
  have stepped : wired.step = (.ok idleTiming, wired.idle) := if_pos idle
  have unwritten : wired.stepWrites = [] := by
    have same : wired.recorded.step = (.ok idleTiming, wired.recorded.idle) := if_pos idle
    rw [stepWrites, same]
    rfl
  have reached : wired.atCheck = wired.idle.advance idleTiming := by
    rw [atCheck, stepped]
  have looked : wired.atCheck.serviceActions = [] := by
    have plain : wired.atCheck.serviceInterrupts = (none, wired.atCheck) := if_pos quiet
    have same : wired.atCheck.recorded.serviceInterrupts = (none, _) := if_pos quiet
    rw [serviceActions, serviceWrites, plain, same]
    rfl
  rw [actions, unwritten, stepped, ← looked, reached]
  rfl

end Instruction

end Wired

end Dmg
