import Dmg.Proofs.Cpu.View

/-!
# Memories that agree at some addresses

The processor knows of its memory what it reads there, and nothing else.  Two memories
may differ as they like at other addresses than those it uses: as long as it keeps to
addresses at which they agree, it does the same with either.

The two are put side by side for the proof.  The processor reads one of them, and the
other one is seen as long as all accesses have been at addresses at which both agree.
-/

namespace Dmg

/-! ## Steps one after the other -/

namespace Wired

variable {Memory : Type} [Bus Memory]

/-- A number of steps and their answers.  A step that fails is followed by the next one
like any other. -/
def runSteps (wired : Wired Memory) : Nat -> List (Except DecodeError Timing) × Wired Memory
  | 0 => ([], wired)
  | count + 1 =>
      let stepped := wired.step
      let rest := stepped.2.runSteps count
      (stepped.1 :: rest.1, rest.2)

/-- What a number of steps read and write, the latest access first. -/
def accessesOver (wired : Wired Memory) (count : Nat) : List Access :=
  (wired.recorded.runSteps count).2.memory.accesses

end Wired

theorem BusView.runSteps_wired {First Second : Type} [Bus First] [Bus Second]
    (view : BusView First Second) (wired : Wired First) (count : Nat) :
    (view.wired wired).runSteps count =
      ((wired.runSteps count).1, view.wired (wired.runSteps count).2) := by
  induction count generalizing wired with
  | zero => rfl
  | succ count inductionHypothesis =>
      simp only [Wired.runSteps, view.step_wired, inductionHypothesis]

theorem BusInvariant.runSteps_holds {Memory : Type} [Bus Memory]
    (invariant : BusInvariant Memory) {wired : Wired Memory}
    (holds : invariant.holds wired.memory) (count : Nat) :
    invariant.holds (wired.runSteps count).2.memory := by
  induction count generalizing wired with
  | zero => exact holds
  | succ count inductionHypothesis => exact inductionHypothesis (invariant.step_holds holds)

namespace PartialView

variable {First Second : Type} [Bus First] [Bus Second] {view : PartialView First Second}

theorem valid_of_runSteps {wired : Wired First} {count : Nat}
    (valid : view.Valid (wired.runSteps count).2) : view.Valid wired := by
  apply Classical.byContradiction
  intro invalid
  exact view.lost.runSteps_holds invalid count valid

/-- Steps that leave all in order are the same on either side, and so are their
answers. -/
theorem runSteps_wired {wired : Wired First} {count : Nat}
    (valid : view.Valid (wired.runSteps count).2) :
    (view.wired wired).runSteps count =
      ((wired.runSteps count).1, view.wired (wired.runSteps count).2) := by
  induction count generalizing wired with
  | zero => rfl
  | succ count inductionHypothesis =>
      have rest : view.Valid (wired.step.2.runSteps count).2 := valid
      simp only [Wired.runSteps, step_wired (valid_of_runSteps rest), inductionHypothesis rest]

end PartialView

/-! ## Agreement -/

/-- Two kinds of memories, and when two of them go together: at some addresses they read
the same, and reads and writes at these addresses lead to memories that go together
again. -/
structure BusAgreement (First Second : Type) [Bus First] [Bus Second] where
  inside : UInt16 -> Prop
  agree : First -> Second -> Prop
  read_agree : forall first second address, agree first second -> inside address ->
    (Bus.read first address).1 = (Bus.read second address).1 ∧
      agree (Bus.read first address).2 (Bus.read second address).2
  write_agree : forall first second address byte, agree first second -> inside address ->
    agree (Bus.write first address byte) (Bus.write second address byte)

/-- Two memories side by side, with a record of the accesses.  The first one answers. -/
structure Paired (First Second : Type) where
  first : First
  second : Second
  accesses : List Access

namespace Paired

variable {First Second : Type} [Bus First] [Bus Second]

instance : Bus (Paired First Second) where
  read paired address :=
    let found := Bus.read paired.first address
    (found.1, ⟨found.2, (Bus.read paired.second address).2,
      .read address found.1 :: paired.accesses⟩)
  write paired address byte :=
    ⟨Bus.write paired.first address byte, Bus.write paired.second address byte,
      .write address byte :: paired.accesses⟩

/-- The first of two memories is always seen. -/
def viewFirst : BusView (Paired First Second) (Recorded First) where
  see paired := ⟨paired.first, paired.accesses⟩
  read_see _ _ := rfl
  write_see _ _ _ := rfl

end Paired

namespace BusAgreement

variable {First Second : Type} [Bus First] [Bus Second] (agreement : BusAgreement First Second)

/-- It does not matter which memory comes first. -/
def symm : BusAgreement Second First where
  inside := agreement.inside
  agree second first := agreement.agree first second
  read_agree second first address agree inside :=
    have read := agreement.read_agree first second address agree inside
    ⟨read.1.symm, read.2⟩
  write_agree second first := agreement.write_agree first second

/-- Whether all accesses are at addresses at which the memories agree. -/
def Within (accesses : List Access) : Prop :=
  ∀ access ∈ accesses, agreement.inside access.address

/-- As long as the processor keeps to the addresses, the memories go together. -/
def together : BusInvariant (Paired First Second) where
  holds paired := agreement.Within paired.accesses -> agreement.agree paired.first paired.second
  read_holds _ address holds within :=
    have others := List.forall_mem_cons.mp within
    (agreement.read_agree _ _ address (holds others.2) others.1).2
  write_holds _ address byte holds within :=
    have others := List.forall_mem_cons.mp within
    agreement.write_agree _ _ address byte (holds others.2) others.1

/-- The second of two memories is seen as long as the processor keeps to the
addresses. -/
def viewSecond : PartialView agreement.together.Kept (Recorded Second) where
  see kept := ⟨kept.val.second, kept.val.accesses⟩
  valid kept := agreement.Within kept.val.accesses
  valid_of_read _ _ within := (List.forall_mem_cons.mp within).2
  valid_of_write _ _ _ within := (List.forall_mem_cons.mp within).2
  read_see kept address within := by
    rcases List.forall_mem_cons.mp within with ⟨inside, others⟩
    have same : (Bus.read kept.val.second address).1 = (Bus.read kept.val.first address).1 :=
      (agreement.read_agree _ _ address (kept.property others) inside).1.symm
    change ((Bus.read kept.val.second address).1, Recorded.mk (Bus.read kept.val.second address).2
      (.read address (Bus.read kept.val.second address).1 :: kept.val.accesses)) = _
    rw [same]
    rfl
  write_see _ _ _ _ := rfl

/-- A number of steps are the same with both memories: they give the same answers, make
the same accesses and leave the same processor, and the memories go together again. -/
structure SameRun (first : Wired First) (second : Wired Second) (count : Nat) : Prop where
  answers : (first.runSteps count).1 = (second.runSteps count).1
  cpu : (first.runSteps count).2.cpu = (second.runSteps count).2.cpu
  accesses : first.accessesOver count = second.accessesOver count
  agree : agreement.agree (first.runSteps count).2.memory (second.runSteps count).2.memory

variable {agreement}

theorem SameRun.symm {first : Wired First} {second : Wired Second} {count : Nat}
    (same : agreement.symm.SameRun second first count) : agreement.SameRun first second count :=
  ⟨same.answers.symm, same.cpu.symm, same.accesses.symm, same.agree⟩

/-- The processor does the same with two memories as long as it keeps to the addresses at
which they agree.  The pair of them runs once, and each sees that run. -/
theorem sameRun_of_within {cpu : Cpu} {first : First} {second : Second}
    (agree : agreement.agree first second) {count : Nat}
    (within : agreement.Within (Wired.accessesOver ⟨cpu, first⟩ count)) :
    agreement.SameRun ⟨cpu, first⟩ ⟨cpu, second⟩ count := by
  let paired : Wired (Paired First Second) := ⟨cpu, ⟨first, second, []⟩⟩
  let kept : Wired agreement.together.Kept := ⟨cpu, ⟨paired.memory, fun _ => agree⟩⟩
  have both : paired.runSteps count = _ := agreement.together.view.runSteps_wired kept count
  have one : (Wired.mk cpu first).recorded.runSteps count = _ :=
    Paired.viewFirst.runSteps_wired paired count
  rw [both] at one
  have valid : agreement.viewSecond.Valid (kept.runSteps count).2 := by
    rw [Wired.accessesOver, one] at within
    exact within
  have other : (Wired.mk cpu second).recorded.runSteps count = _ :=
    PartialView.runSteps_wired valid
  have plainFirst : (Wired.mk cpu first).runSteps count = _ :=
    Recorded.view.runSteps_wired (Wired.mk cpu first).recorded count
  have plainSecond : (Wired.mk cpu second).runSteps count = _ :=
    Recorded.view.runSteps_wired (Wired.mk cpu second).recorded count
  constructor
  · rw [plainFirst, plainSecond, one, other]
  · rw [plainFirst, plainSecond, one, other]
    rfl
  · rw [Wired.accessesOver, Wired.accessesOver, one, other]
    rfl
  · rw [plainFirst, plainSecond, one, other]
    exact (kept.runSteps count).2.memory.property valid

end BusAgreement

end Dmg
