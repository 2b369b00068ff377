import Dmg.Memory.Recorded
import Dmg.Proofs.Cpu.PartialView

/-!
# Seeing one memory as another

The processor knows its memory only by reads and writes.  When one kind of
memory can be seen as another in such a way that reads and writes may always be
done on either side, everything that the processor does may be done on either side.
This is the view that is never out of order.

Two uses follow.  A recorded memory is seen as the memory inside it, so a
record shows what a step writes and does not disturb the step.  A memory that
is known to have a property, together with that knowledge, is seen as the memory
alone, so a property that reads and writes keep is kept by every step.
-/

namespace Dmg

/-- A way to see one memory as another: it makes no difference on which side
the processor reads and writes.  So whatever the processor does on the one side it
does on the other, and each operation need not be looked at for every memory. -/
structure BusView (First Second : Type) [Bus First] [Bus Second] where
  see : First -> Second
  read_see : forall memory address, Bus.read (see memory) address =
    ((Bus.read memory address).1, see (Bus.read memory address).2)
  write_see : forall memory address byte, Bus.write (see memory) address byte =
    see (Bus.write memory address byte)

namespace BusView

variable {First Second : Type} [Bus First] [Bus Second] (view : BusView First Second)

def wired (wired : Wired First) : Wired Second :=
  ⟨wired.cpu, view.see wired.memory⟩

/-- It is the view for a while that never ends. -/
def always : PartialView First Second where
  see := view.see
  valid _ := True
  valid_of_read _ _ _ := trivial
  valid_of_write _ _ _ _ := trivial
  read_see memory address _ := view.read_see memory address
  write_see memory address byte _ := view.write_see memory address byte

/-- An operation is the same on either side. -/
theorem perform_wired (wired : Wired First) (operation : Operation) :
    (view.wired wired).perform operation = view.wired (wired.perform operation) := by
  have performed : view.always.Valid (wired.perform operation) := trivial
  have same := PartialView.perform_wired performed
  exact same

/-- So is the look for requests, with its answer. -/
theorem serviceInterrupts_wired (wired : Wired First) :
    (view.wired wired).serviceInterrupts =
      (wired.serviceInterrupts.1, view.wired wired.serviceInterrupts.2) := by
  have looked : view.always.Valid wired.serviceInterrupts.2 := trivial
  have same := PartialView.serviceInterrupts_wired looked
  exact same

end BusView

/-! ## Properties that reads and writes keep -/

/-- A property of memories that neither reads nor writes can end.  It then outlasts every
operation, step and dispatch, whatever the program does. -/
structure BusInvariant (Memory : Type) [Bus Memory] where
  holds : Memory -> Prop
  read_holds : forall memory address, holds memory -> holds (Bus.read memory address).2
  write_holds : forall memory address byte, holds memory ->
    holds (Bus.write memory address byte)

namespace BusInvariant

variable {Memory : Type} [Bus Memory] (invariant : BusInvariant Memory)

/-- A memory that is known to have the property. -/
def Kept : Type := { memory : Memory // invariant.holds memory }

instance : Bus invariant.Kept where
  read kept address :=
    ((Bus.read kept.val address).1,
      ⟨(Bus.read kept.val address).2, invariant.read_holds kept.val address kept.property⟩)
  write kept address byte :=
    ⟨Bus.write kept.val address byte, invariant.write_holds kept.val address byte kept.property⟩

/-- Without the knowledge it is the same memory. -/
def view : BusView invariant.Kept Memory where
  see := Subtype.val
  read_see _ _ := rfl
  write_see _ _ _ := rfl

/-- An operation keeps whatever reads and writes keep. -/
theorem perform_holds {wired : Wired Memory} (holds : invariant.holds wired.memory)
    (operation : Operation) : invariant.holds (wired.perform operation).memory := by
  let kept : Wired invariant.Kept := ⟨wired.cpu, ⟨wired.memory, holds⟩⟩
  have same : wired.perform operation = invariant.view.wired (kept.perform operation) :=
    invariant.view.perform_wired kept operation
  rw [same]
  exact (kept.perform operation).memory.property

end BusInvariant

/-! ## Steps -/

namespace PartialView

variable {First Second : Type} [Bus First] [Bus Second]

/-- What is out of order stays so, whatever the processor does. -/
def lost (view : PartialView First Second) : BusInvariant First where
  holds memory := ¬ view.valid memory
  read_holds memory address invalid valid := invalid (view.valid_of_read memory address valid)
  write_holds memory address byte invalid valid :=
    invalid (view.valid_of_write memory address byte valid)

variable {view : PartialView First Second} {wired : Wired First}

theorem valid_of_perform {operation : Operation}
    (valid : view.Valid (wired.perform operation)) : view.Valid wired := by
  apply Classical.byContradiction
  intro invalid
  exact view.lost.perform_holds invalid operation valid

/-- A step that leaves all in order is the same on either side, and so is its answer. -/
theorem step_wired (valid : view.Valid wired.step.2) :
    (view.wired wired).step = (wired.step.1, view.wired wired.step.2) := by
  have cpu : (view.wired wired).cpu = wired.cpu := rfl
  by_cases idle : wired.cpu.isIdle = true
  · rw [Wired.step, Wired.step, cpu, if_pos idle, if_pos idle]
    rfl
  · simp only [Wired.step, if_neg idle, cpu] at valid ⊢
    cases same : Opcode.decode wired.fetchByte.1 with
    | operation operation =>
        simp only [same] at valid ⊢
        have fetched := valid_of_perform valid
        simp only [fetchByte_wired fetched, same, perform_wired valid]
        rfl
    | extended =>
        simp only [same] at valid ⊢
        have selected := valid_of_perform valid
        have fetched := valid_of_fetchByte selected
        simp only [fetchByte_wired fetched, same, fetchByte_wired selected, perform_wired valid]
        rfl
    | undefined =>
        simp only [same] at valid ⊢
        have fetched : view.Valid wired.fetchByte.2 := valid
        simp only [fetchByte_wired fetched, same, wired_registers, jump_wired]

end PartialView

/-- A step is the same on either side, and so is its answer. -/
theorem BusView.step_wired {First Second : Type} [Bus First] [Bus Second]
    (view : BusView First Second) (wired : Wired First) :
    (view.wired wired).step = (wired.step.1, view.wired wired.step.2) := by
  have stepped : view.always.Valid wired.step.2 := trivial
  have same := PartialView.step_wired stepped
  exact same

namespace BusInvariant

variable {Memory : Type} [Bus Memory] (invariant : BusInvariant Memory)

/-- A step keeps whatever reads and writes keep. -/
theorem step_holds {wired : Wired Memory} (holds : invariant.holds wired.memory) :
    invariant.holds wired.step.2.memory := by
  let kept : Wired invariant.Kept := ⟨wired.cpu, ⟨wired.memory, holds⟩⟩
  have same : wired.step = (kept.step.1, invariant.view.wired kept.step.2) :=
    invariant.view.step_wired kept
  rw [same]
  exact kept.step.2.memory.property

/-- So does the look for requests. -/
theorem serviceInterrupts_holds {wired : Wired Memory} (holds : invariant.holds wired.memory) :
    invariant.holds wired.serviceInterrupts.2.memory := by
  let kept : Wired invariant.Kept := ⟨wired.cpu, ⟨wired.memory, holds⟩⟩
  have same : wired.serviceInterrupts =
      (kept.serviceInterrupts.1, invariant.view.wired kept.serviceInterrupts.2) :=
    invariant.view.serviceInterrupts_wired kept
  rw [same]
  exact kept.serviceInterrupts.2.memory.property

end BusInvariant

/-! ## Records -/

namespace Recorded

variable {Memory : Type} [Bus Memory]

/-- A recorded memory is seen as the memory inside it. -/
def view : BusView (Recorded Memory) Memory where
  see := memory
  read_see _ _ := rfl
  write_see _ _ _ := rfl

theorem mem_writes_of_mem {Memory : Type} {recorded : Recorded Memory} {address : UInt16}
    {byte : UInt8} (member : Access.write address byte ∈ recorded.accesses) :
    (address, byte) ∈ recorded.writes :=
  List.mem_filterMap.mpr ⟨.write address byte, List.mem_reverse.mpr member, rfl⟩

end Recorded

namespace Wired

variable {Memory : Type} [Bus Memory]

/-- The same processor, with a record of what it does from now on. -/
def recorded (wired : Wired Memory) : Wired (Recorded Memory) :=
  ⟨wired.cpu, Recorded.start wired.memory⟩

/-- What the next step writes, in the order of the writes. -/
def stepWrites (wired : Wired Memory) : List (UInt16 × UInt8) :=
  wired.recorded.step.2.memory.writes

theorem step_recorded (wired : Wired Memory) :
    wired.step = (wired.recorded.step.1, Recorded.view.wired wired.recorded.step.2) :=
  Recorded.view.step_wired wired.recorded

end Wired

end Dmg
