import Dmg.Proofs.Board.Ram
import Dmg.Proofs.Cpu.Stack
import Dmg.Proofs.Machine.History
import Dmg.Proofs.Machine.Service

/-!
# What an interrupted program notices

A dispatch saves the program counter and nothing else, so it is up to the handler that the
program finds everything as it was.  The handler has to leave the two bytes alone that were
saved, and to give the byte registers and the stack pointer back.  Then the program goes on as
if nothing had happened, whatever the handler did meanwhile: it may take any time, and be
interrupted itself.

The two bytes are safe from everything but a write to them.  Devices do not reach memory, and
a transfer reads it only.
-/

namespace Dmg

namespace Call

/-- Whether a call leaves the power on. -/
def keepsPower : Call -> Bool
  | .reset | .load _ | .loadBoot _ => false
  | _ => true

end Call

/-- No write reaches the byte at an address, at its echo neither. -/
def Misses (writes : List (UInt16 × UInt8)) (address : UInt16) : Prop :=
  ∀ write ∈ writes, ¬ Location.SameByte write.1 address

instance (writes : List (UInt16 × UInt8)) (address : UInt16) : Decidable (Misses writes address) :=
  List.decidableBAll (fun write : UInt16 × UInt8 => ¬ Location.SameByte write.1 address) writes

/-- A byte of memory stays as long as the record has no write that reaches it. -/
def byteKept {address : UInt16} (inside : InRam address) (byte : UInt8) :
    BusInvariant (Recorded Board) where
  holds recorded :=
    (∃ written stored, Access.write written stored ∈ recorded.accesses ∧
      Location.SameByte written address) ∨ recorded.memory.read address = byte
  read_holds := by
    rintro recorded other (⟨written, stored, member, reaches⟩ | kept)
    · exact Or.inl ⟨written, stored, List.mem_cons_of_mem _ member, reaches⟩
    · exact Or.inr kept
  write_holds := by
    rintro recorded other byte (⟨written, stored, member, reaches⟩ | kept)
    · exact Or.inl ⟨written, stored, List.mem_cons_of_mem _ member, reaches⟩
    · by_cases reaches : Location.SameByte other address
      · exact Or.inl ⟨other, byte, List.mem_cons_self, reaches⟩
      · exact Or.inr ((recorded.memory.read_write_of_inRam inside reaches byte).trans kept)

theorem byteKept_read {address : UInt16} {inside : InRam address} {byte : UInt8}
    {recorded : Recorded Board} (kept : (byteKept inside byte).holds recorded)
    (misses : Misses recorded.writes address) : recorded.memory.read address = byte := by
  rcases kept with ⟨written, stored, member, reaches⟩ | kept
  · exact False.elim (misses (written, stored) (Recorded.mem_writes_of_mem member) reaches)
  · exact kept

namespace Wired

/-- What the look for requests writes, in the order of the writes. -/
def checkWrites (wired : Wired Board) : List (UInt16 × UInt8) :=
  wired.recorded.serviceInterrupts.2.memory.writes

/-- What an instruction writes together with what follows from it.  There is no look for
requests behind one that fails. -/
def instructionWrites (wired : Wired Board) : List (UInt16 × UInt8) :=
  match wired.step.1 with
  | .ok _ => wired.stepWrites ++ wired.atCheck.checkWrites
  | .error _ => wired.stepWrites

section Kept

variable {wired : Wired Board} {address : UInt16} (inside : InRam address)
include inside

theorem read_step (misses : Misses wired.stepWrites address) :
    wired.step.2.memory.read address = wired.memory.read address := by
  have kept := (byteKept inside (wired.memory.read address)).step_holds
    (show (byteKept inside _).holds wired.recorded.memory from Or.inr rfl)
  rw [step_recorded]
  exact byteKept_read kept misses

theorem read_serviceInterrupts (misses : Misses wired.checkWrites address) :
    wired.serviceInterrupts.2.memory.read address = wired.memory.read address := by
  have kept := (byteKept inside (wired.memory.read address)).serviceInterrupts_holds
    (show (byteKept inside _).holds wired.recorded.memory from Or.inr rfl)
  have seen : wired.serviceInterrupts = _ :=
    Recorded.view.serviceInterrupts_wired wired.recorded
  rw [seen]
  exact byteKept_read kept misses

/-- Memory does not change while time passes. -/
theorem read_advance (timing : Timing) :
    (wired.advance timing).memory.read address = wired.memory.read address := by
  have work : (wired.advance timing).memory.workMemory = wired.memory.workMemory := rfl
  have high : (wired.advance timing).memory.highMemory = wired.memory.highMemory := rfl
  exact Board.read_eq_of_inRam work high inside

theorem read_settleInterrupts (misses : Misses wired.checkWrites address) (timing : Timing) :
    (wired.settleInterrupts timing).2.memory.read address = wired.memory.read address := by
  have looked := read_serviceInterrupts inside misses
  rw [settleInterrupts]
  rcases found : wired.serviceInterrupts with ⟨answer, checked⟩
  rw [found] at looked
  cases answer with
  | none => exact looked
  | some dispatch => exact (read_advance inside dispatch).trans looked

theorem read_instruction (misses : Misses wired.instructionWrites address) :
    wired.instruction.2.memory.read address = wired.memory.read address := by
  rw [instructionWrites] at misses
  have step : Misses wired.stepWrites address ->
      wired.step.2.memory.read address = wired.memory.read address := read_step inside
  rcases stepped : wired.step with ⟨answer, after⟩
  rw [stepped] at misses step
  cases answer with
  | error failure =>
      rw [instruction, stepped]
      exact step misses
  | ok timing =>
      have reached : wired.atCheck = after.advance timing := by
        rw [atCheck, stepped]
      rcases List.forall_mem_append.mp misses with ⟨first, second⟩
      rw [reached] at second
      rw [instruction, stepped]
      exact (read_settleInterrupts inside second timing).trans
        ((read_advance inside timing).trans (step first))

end Kept

end Wired

namespace Machine

/-- What a call for an instruction writes, in the order of the writes. -/
def writes (machine : Machine) : List (UInt16 × UInt8) :=
  match machine.fault with
  | some _ => []
  | none => machine.core.instructionWrites

section Kept

variable {machine : Machine} {address : UInt16} (inside : InRam address)
include inside

theorem peek_step (misses : Misses machine.writes address) :
    machine.step.2.peek address = machine.peek address := by
  rw [writes] at misses
  rw [step]
  cases fault : machine.fault with
  | some failure => rfl
  | none =>
      rw [fault] at misses
      have kept := Wired.read_instruction inside misses
      rcases executed : machine.core.instruction with ⟨answer, core⟩
      rw [executed] at kept
      cases answer with
      | error failure => exact kept
      | ok timing => exact kept

theorem peek_afterSteps {count : Nat}
    (misses : ∀ earlier, earlier < count -> Misses (machine.afterSteps earlier).writes address) :
    (machine.afterSteps count).peek address = machine.peek address := by
  induction count with
  | zero => rfl
  | succ count inductionHypothesis =>
      have before := inductionHypothesis fun earlier less => misses earlier (Nat.lt_succ_of_lt less)
      rw [afterSteps_succ, peek_step inside (misses count (Nat.lt_succ_self count)), before]

/-- What the owner does meanwhile does not change a byte of memory either. -/
theorem peek_apply {call : Call} (power : call.keepsPower = true)
    (misses : ∀ called ∈ machine.called call, Misses called.writes address) :
    (machine.apply call).peek address = machine.peek address := by
  cases call with
  | runFrame =>
      rcases machine.frameCalls_eq with ⟨calls, last⟩
      have kept : (machine.unpaused.afterSteps machine.frameCalls.length).peek address =
          machine.unpaused.peek address := by
        apply peek_afterSteps inside
        intro earlier less
        apply misses
        rw [called, calls]
        exact List.mem_map_of_mem (List.mem_range.mpr less)
      rw [← last] at kept
      exact kept
  | step => exact peek_step inside (misses machine (List.mem_singleton_self machine))
  | addBreakpoint address =>
      rw [apply, addBreakpoint_eq_steered]
      rfl
  | setButton button held =>
      have work : (machine.setButton button held).board.workMemory = machine.board.workMemory := rfl
      have high : (machine.setButton button held).board.highMemory = machine.board.highMemory := rfl
      exact Board.read_eq_of_inRam work high inside
  | removeBreakpoint | resume => rfl
  | reset | load | loadBoot => cases power

theorem peek_applyAll {calls : List Call} (power : ∀ call ∈ calls, call.keepsPower = true)
    (misses : ∀ called ∈ machine.calledOver calls, Misses called.writes address) :
    (calls.foldl apply machine).peek address = machine.peek address := by
  induction calls generalizing machine with
  | nil => rfl
  | cons call calls inductionHypothesis =>
      rcases List.forall_mem_cons.mp power with ⟨first, others⟩
      rcases List.forall_mem_append.mp misses with ⟨now, thereafter⟩
      rw [List.foldl_cons, inductionHypothesis others thereafter, peek_apply inside first now]

end Kept

end Machine

namespace Wired

/-! ## The way back -/

/-- Right after a dispatch the program counter of the interrupted program is on the stack. -/
theorem saved_of_dispatched {check next : Wired Board} {source : Interrupt} {vector : UInt16}
    (dispatched : Dispatched check next source vector) (high : InRam (check.registers.sp - 1))
    (low : InRam (check.registers.sp - 2)) :
    next.memory.read (check.registers.sp - 1) = Word.high check.registers.pc ∧
      next.memory.read (check.registers.sp - 2) = Word.low check.registers.pc := by
  have apart : ¬ Location.SameByte (check.registers.sp - 2) (check.registers.sp - 1) := by
    intro same
    have equal := Location.eq_of_sameByte low high same
    grind
  have kept {address : UInt16} (inside : InRam address) :
      next.memory.read address = (check.handedOver source).read address := by
    let behind : Wired Board := ⟨check.cpu, check.handedOver source⟩
    rw [dispatched.memory]
    exact behind.read_advance inside dispatchTiming
  rw [kept high, kept low, handedOver]
  constructor
  · rw [Board.read_write_of_inRam _ high apart, Board.read_write_self_of_inRam _ high]
  · rw [Board.read_write_self_of_inRam _ low]

/-- The program goes on as if it had not been interrupted. -/
structure Unnoticed (check after : Wired Board) : Prop where
  registers : after.registers = check.registers
  ime : after.cpu.ime = true
  halted : after.cpu.halted = false

/-- A return from a handler lets interrupts in again, and ends no halt since there is none. -/
theorem control_of_reti {Memory : Type} [Bus Memory] {wired : Wired Memory}
    (returns : wired.operation? = some .reti) :
    (∃ timing, wired.step.1 = .ok timing) ∧ wired.step.2.cpu.ime = true ∧
      wired.step.2.cpu.halted = false := by
  rcases Option.map_eq_some_iff.mp returns with ⟨⟨operation, fetched⟩, decoded, found⟩
  cases found
  have awake : wired.cpu.isIdle = false := by
    apply Bool.eq_false_iff.mpr
    intro idle
    rw [decoded?_eq_none_of_isIdle idle] at decoded
    cases decoded
  have control := control_of_decoded decoded
  have halted : fetched.cpu.halted = wired.cpu.halted := (congrArg Cpu.halted control :)
  have stepped := step_of_decoded decoded
  refine ⟨⟨_, congrArg Prod.fst stepped⟩, ?_, ?_⟩
  · rw [stepped]
    exact ime_perform fetched .reti
  · rw [stepped]
    exact halted.trans (Bool.or_eq_false_iff.mp awake).1

end Wired

namespace Machine

/-- The handler of an interruption is about to return: the stack pointer and the two bytes that
were saved are what they were when it began, and the byte registers are again those of the
interrupted program. -/
structure Restores (check : Wired Board) (next last : Machine) : Prop where
  returns : last.core.operation? = some .reti
  sp : last.cpu.registers.sp = next.cpu.registers.sp
  high : last.peek (check.registers.sp - 1) = next.peek (check.registers.sp - 1)
  low : last.peek (check.registers.sp - 2) = next.peek (check.registers.sp - 2)
  registers : last.cpu.registers =
    { check.registers with sp := last.cpu.registers.sp, pc := last.cpu.registers.pc }

/-- A handler that restores everything returns to where the program was interrupted. -/
theorem Restores.unnoticed {check : Wired Board} {next last : Machine} {source : Interrupt}
    {vector : UInt16} (restores : Restores check next last)
    (dispatched : Wired.Dispatched check next.core source vector)
    (high : InRam (check.registers.sp - 1)) (low : InRam (check.registers.sp - 2)) :
    (∃ timing, last.core.step.1 = .ok timing) ∧ Wired.Unnoticed check last.core.atCheck := by
  rcases Wired.saved_of_dispatched dispatched high low with ⟨savedHigh, savedLow⟩
  rcases Wired.control_of_reti restores.returns with ⟨⟨timing, succeeds⟩, ime, halted⟩
  rcases Wired.step_of_takes Wired.isQuiet_board restores.returns rfl with ⟨-, registers⟩
  have sp : last.core.registers.sp = check.registers.sp - 2 := restores.sp.trans dispatched.sp
  have top : last.core.top = check.registers.pc := by
    have above : last.core.registers.sp + 1 = check.registers.sp - 1 := by grind
    have upper := restores.high.trans savedHigh
    have lower := restores.low.trans savedLow
    change Word.ofBytes (last.peek (last.core.registers.sp + 1))
      (last.peek last.core.registers.sp) = _
    rw [above, sp, upper, lower, Word.ofBytes_high_low]
  have stepped : last.core.step = (.ok timing, last.core.step.2) := Prod.ext succeeds rfl
  have cpu := Wired.cpu_atCheck stepped
  refine ⟨⟨timing, succeeds⟩, ?_, ?_, ?_⟩
  · have back : last.core.registers.sp + 2 = check.registers.sp := by grind
    change last.core.atCheck.cpu.registers = _
    rw [cpu]
    change last.core.step.2.registers = _
    rw [registers, top, back]
    change { last.cpu.registers with sp := check.registers.sp, pc := check.registers.pc } = _
    rw [restores.registers]
  · rw [cpu]
    exact ime
  · rw [cpu]
    exact halted

/-- An interruption whose stack is in memory goes unnoticed.  The two bytes that it saves stay
there, like all of memory, as long as nothing is written to them, whatever is executed and
dispatched and whatever the owner does that leaves the power on.  And whenever the handler is
about to return with all restored, the return succeeds, and behind it the program goes on where
it was, with the same registers, interrupts permitted and no halt. -/
theorem interruption_goes_unnoticed {machine next : Machine} {timing : Timing}
    (stepped : machine.step = (.ok timing, next)) (dispatched : machine.turn.dispatched = true)
    (high : InRam (machine.core.atCheck.registers.sp - 1))
    (low : InRam (machine.core.atCheck.registers.sp - 2)) :
    let check := machine.core.atCheck
    next.peek (check.registers.sp - 1) = Word.high check.registers.pc ∧
      next.peek (check.registers.sp - 2) = Word.low check.registers.pc ∧
      ∀ calls : List Call, (∀ call ∈ calls, call.keepsPower = true) ->
        let last := calls.foldl apply next
        (∀ address, InRam address ->
          (∀ called ∈ next.calledOver calls, Misses called.writes address) ->
          last.peek address = next.peek address) ∧
        (Restores check next last ->
          (∃ spent, last.core.step.1 = .ok spent) ∧ Wired.Unnoticed check last.core.atCheck) := by
  intro check
  rcases exists_dispatched stepped dispatched with ⟨source, vector, spec⟩
  rcases Wired.saved_of_dispatched spec high low with ⟨savedHigh, savedLow⟩
  refine ⟨savedHigh, savedLow, ?_⟩
  intro calls power last
  constructor
  · intro address inside misses
    exact peek_applyAll inside power misses
  · intro restores
    exact restores.unnoticed spec high low

/-- A machine among operations that do nothing, with two sources asking.  The handler of the
first one lets the second one in before it returns. -/
def nestedHandlers : Machine :=
  ((startedWith (List.replicate 64 0 ++ [0xFB, 0x00, 0xD9] ++ List.replicate 5 0 ++ [0xD9])).mapCpu
    fun cpu => { cpu with ime := true, registers := { cpu.registers with sp := 0xC010 } }).mapBoard
      fun board => { board with interrupts := ⟨3, 3⟩ }

/-- When the first handler returns both interruptions are over, and the program goes on where
it was. -/
theorem nestedHandlers_go_unnoticed :
    let next := nestedHandlers.step.2
    let calls : List Call := [.step, .setButton .start true, .step, .step]
    nestedHandlers.step.1 = .ok ⟨20⟩ ∧ nestedHandlers.turn.dispatched = true ∧
      next.step.2.turn.dispatched = true ∧
      Restores nestedHandlers.core.atCheck next (calls.foldl apply next) ∧
      Wired.Unnoticed nestedHandlers.core.atCheck (calls.foldl apply next).core.atCheck := by
  intro next calls
  have answer : nestedHandlers.step.1 = .ok ⟨20⟩ := by decide +kernel
  have stepped : nestedHandlers.step = (.ok ⟨20⟩, nestedHandlers.step.2) := by
    generalize nestedHandlers.step = taken at answer
    exact Prod.ext answer rfl
  have dispatched : nestedHandlers.turn.dispatched = true := by decide +kernel
  have again : next.step.2.turn.dispatched = true := by decide +kernel
  have pointer : nestedHandlers.core.atCheck.registers.sp = 0xC010 := by decide +kernel
  have high : InRam (nestedHandlers.core.atCheck.registers.sp - 1) := by
    rw [pointer]
    decide
  have low : InRam (nestedHandlers.core.atCheck.registers.sp - 2) := by
    rw [pointer]
    decide
  have power : ∀ call ∈ calls, call.keepsPower = true := by decide
  have spares : ∀ called ∈ next.calledOver calls,
      Misses called.writes 0xC00F ∧ Misses called.writes 0xC00E := by
    decide +kernel
  rcases interruption_goes_unnoticed stepped dispatched high low with ⟨-, -, handler⟩
  rcases handler calls power with ⟨kept, back⟩
  have last : (calls.foldl apply next).core.operation? = some .reti ∧
      (calls.foldl apply next).cpu.registers =
        { nestedHandlers.core.atCheck.registers with sp := 0xC00E, pc := 0x42 } := by
    decide +kernel
  have restores : Restores nestedHandlers.core.atCheck next (calls.foldl apply next) := {
    returns := last.1
    sp := by
      rw [last.2]
      decide +kernel
    high := by
      apply kept _ high
      rw [pointer]
      exact fun called member => (spares called member).1
    low := by
      apply kept _ low
      rw [pointer]
      exact fun called member => (spares called member).2
    registers := by rw [last.2] }
  exact ⟨answer, dispatched, again, restores, (back restores).2⟩

end Machine

end Dmg
