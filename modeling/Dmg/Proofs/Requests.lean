import Dmg.Interrupt

/-!
# Bits of a byte of requests

Each source has a bit of its own in the request register and in the answers of
the devices.  The facts here follow a source through the ways in which bytes of
requests are put together and taken apart: a source is raised in a union if it
is raised in a part, and taking back the request of one source touches no other.
-/

namespace Dmg

namespace Interrupt

def place : Interrupt -> Nat
  | vblank => 0
  | lcdStat => 1
  | timer => 2
  | serial => 3
  | joypad => 4

theorem place_lt (source : Interrupt) : source.place < 8 := by
  cases source <;> decide

theorem toBitVec_mask (source : Interrupt) :
    source.mask.toBitVec = BitVec.twoPow 8 source.place := by
  cases source <;> rfl

/-- Whether the bit of a source is raised in a byte of requests. -/
def RaisedIn (source : Interrupt) (requests : UInt8) : Prop :=
  requests &&& source.mask ≠ 0

instance (source : Interrupt) (requests : UInt8) : Decidable (source.RaisedIn requests) :=
  inferInstanceAs (Decidable (requests &&& source.mask ≠ 0))

theorem raisedIn_iff_getLsbD {source : Interrupt} {requests : UInt8} :
    source.RaisedIn requests ↔ requests.toBitVec.getLsbD source.place = true := by
  rw [RaisedIn, Ne, ← UInt8.toBitVec_inj, UInt8.toBitVec_and, toBitVec_mask, BitVec.and_twoPow]
  cases raised : requests.toBitVec.getLsbD source.place with
  | false => simp
  | true =>
      cases source <;> decide

@[simp] theorem not_raisedIn_zero (source : Interrupt) : ¬ source.RaisedIn 0 := by
  cases source <;> decide

@[simp] theorem raisedIn_or {source : Interrupt} {first second : UInt8} :
    source.RaisedIn (first ||| second) ↔ source.RaisedIn first ∨ source.RaisedIn second := by
  simp only [raisedIn_iff_getLsbD, UInt8.toBitVec_or, BitVec.getLsbD_or, Bool.or_eq_true]

@[simp] theorem raisedIn_and {source : Interrupt} {first second : UInt8} :
    source.RaisedIn (first &&& second) ↔ source.RaisedIn first ∧ source.RaisedIn second := by
  simp only [raisedIn_iff_getLsbD, UInt8.toBitVec_and, BitVec.getLsbD_and, Bool.and_eq_true]

@[simp] theorem raisedIn_not {source : Interrupt} {requests : UInt8} :
    source.RaisedIn (~~~requests) ↔ ¬ source.RaisedIn requests := by
  simp only [raisedIn_iff_getLsbD, UInt8.toBitVec_not, BitVec.getLsbD_not, source.place_lt,
    decide_true, Bool.true_and, Bool.not_eq_true', Bool.not_eq_true]

@[simp] theorem raisedIn_mask {source other : Interrupt} :
    source.RaisedIn other.mask ↔ source = other := by
  cases source <;> cases other <;> decide

@[simp] theorem raisedIn_allMask (source : Interrupt) : source.RaisedIn allMask := by
  cases source <;> decide

/-! ## Requests that are put in -/

/-- Requests of the sources that ask while time passes: neither the serial link
nor a button does. -/
def FromDevices (requests : UInt8) : Prop :=
  ∀ source : Interrupt, source.RaisedIn requests -> source ≠ .serial ∧ source ≠ .joypad

/-- No request is lost from one byte to the other, and none is new but those of
the sources that ask while time passes. -/
structure OnlyAdds (first second : UInt8) : Prop where
  kept : ∀ source : Interrupt, source.RaisedIn first -> source.RaisedIn second
  added : ∀ source : Interrupt, source.RaisedIn second ->
    source.RaisedIn first ∨ source ≠ .serial ∧ source ≠ .joypad

theorem OnlyAdds.refl (requests : UInt8) : OnlyAdds requests requests :=
  ⟨fun _ raised => raised, fun _ raised => Or.inl raised⟩

theorem OnlyAdds.trans {first second third : UInt8} (early : OnlyAdds first second)
    (late : OnlyAdds second third) : OnlyAdds first third := by
  constructor
  · intro source raised
    exact late.kept source (early.kept source raised)
  · intro source raised
    rcases late.added source raised with before | timed
    · exact early.added source before
    · exact Or.inr timed

theorem OnlyAdds.not_added {first second : UInt8} (adds : OnlyAdds first second)
    {source : Interrupt} (untimed : source = .serial ∨ source = .joypad)
    (raised : source.RaisedIn second) : source.RaisedIn first := by
  rcases adds.added source raised with before | ⟨notSerial, notJoypad⟩
  · exact before
  · rcases untimed with same | same
    · exact False.elim (notSerial same)
    · exact False.elim (notJoypad same)

theorem FromDevices.onlyAdds {requests : UInt8} (devices : FromDevices requests) (first : UInt8) :
    OnlyAdds first (first ||| requests) := by
  constructor
  · intro source raised
    exact raisedIn_or.mpr (Or.inl raised)
  · intro source raised
    rcases raisedIn_or.mp raised with before | asked
    · exact Or.inl before
    · exact Or.inr (devices source asked)

theorem FromDevices.or {first second : UInt8} (early : FromDevices first)
    (late : FromDevices second) : FromDevices (first ||| second) := by
  intro source raised
  rcases raisedIn_or.mp raised with asked | asked
  · exact early source asked
  · exact late source asked

theorem fromDevices_zero : FromDevices 0 := by
  intro source raised
  exact False.elim (not_raisedIn_zero source raised)

theorem fromDevices_mask {source : Interrupt} (timed : source ≠ .serial ∧ source ≠ .joypad) :
    FromDevices source.mask := by
  intro other raised
  rw [raisedIn_mask.mp raised]
  exact timed

/-! ## The source that is handled first -/

/-- What the look at one source comes to. -/
def look (pending : UInt8) (source : Interrupt) : Option (Interrupt × UInt16) :=
  if pending &&& source.mask = 0 then none
  else source.vector?.map fun vector => (source, vector)

theorem look_of_raisedIn {pending : UInt8} {source : Interrupt} (raised : source.RaisedIn pending) :
    look pending source = source.vector?.map fun vector => (source, vector) :=
  if_neg raised

theorem look_of_not_raisedIn {pending : UInt8} {source : Interrupt}
    (quiet : ¬ source.RaisedIn pending) : look pending source = none :=
  if_pos (Decidable.not_not.mp quiet)

theorem look_serial (pending : UInt8) : look pending serial = none := by
  rw [look]
  split <;> rfl

theorem first?_eq (pending : UInt8) :
    first? pending =
      ((look pending vblank).or ((look pending lcdStat).or ((look pending timer).or
        (look pending joypad)))) := by
  have looked : first? pending = byPriority.findSome? (look pending) := rfl
  rw [looked, byPriority]
  simp only [List.findSome?_cons, List.findSome?_nil, look_serial]
  cases look pending vblank <;> cases look pending lcdStat <;> cases look pending timer <;>
    cases look pending joypad <;> rfl

/-- The sources are looked at one after the other, and the serial link is passed
over. -/
theorem first?_cases (pending : UInt8) :
    (vblank.RaisedIn pending ∧ first? pending = some (vblank, 0x40)) ∨
    (¬ vblank.RaisedIn pending ∧ lcdStat.RaisedIn pending ∧
      first? pending = some (lcdStat, 0x48)) ∨
    (¬ vblank.RaisedIn pending ∧ ¬ lcdStat.RaisedIn pending ∧ timer.RaisedIn pending ∧
      first? pending = some (timer, 0x50)) ∨
    (¬ vblank.RaisedIn pending ∧ ¬ lcdStat.RaisedIn pending ∧ ¬ timer.RaisedIn pending ∧
      joypad.RaisedIn pending ∧ first? pending = some (joypad, 0x60)) ∨
    (¬ vblank.RaisedIn pending ∧ ¬ lcdStat.RaisedIn pending ∧ ¬ timer.RaisedIn pending ∧
      ¬ joypad.RaisedIn pending ∧ first? pending = none) := by
  rw [first?_eq]
  by_cases first : vblank.RaisedIn pending
  · rw [look_of_raisedIn first]
    exact Or.inl ⟨first, rfl⟩
  rw [look_of_not_raisedIn first]
  by_cases second : lcdStat.RaisedIn pending
  · rw [look_of_raisedIn second]
    exact Or.inr (Or.inl ⟨first, second, rfl⟩)
  rw [look_of_not_raisedIn second]
  by_cases third : timer.RaisedIn pending
  · rw [look_of_raisedIn third]
    exact Or.inr (Or.inr (Or.inl ⟨first, second, third, rfl⟩))
  rw [look_of_not_raisedIn third]
  by_cases fourth : joypad.RaisedIn pending
  · rw [look_of_raisedIn fourth]
    exact Or.inr (Or.inr (Or.inr (Or.inl ⟨first, second, third, fourth, rfl⟩)))
  · rw [look_of_not_raisedIn fourth]
    exact Or.inr (Or.inr (Or.inr (Or.inr ⟨first, second, third, fourth, rfl⟩)))

/-- A source is found as soon as one that has a handler is raised. -/
theorem isSome_first?_iff {pending : UInt8} :
    (first? pending).isSome = true ↔ ∃ source, source ≠ serial ∧ source.RaisedIn pending := by
  rcases first?_cases pending with
    ⟨raised, found⟩ | ⟨-, raised, found⟩ | ⟨-, -, raised, found⟩ | ⟨-, -, -, raised, found⟩ |
    ⟨first, second, third, fourth, found⟩
  · rw [found]
    exact iff_of_true rfl ⟨vblank, nofun, raised⟩
  · rw [found]
    exact iff_of_true rfl ⟨lcdStat, nofun, raised⟩
  · rw [found]
    exact iff_of_true rfl ⟨timer, nofun, raised⟩
  · rw [found]
    exact iff_of_true rfl ⟨joypad, nofun, raised⟩
  · rw [found]
    refine iff_of_false nofun ?_
    rintro ⟨source, handled, raised⟩
    cases source with
    | vblank => exact first raised
    | lcdStat => exact second raised
    | timer => exact third raised
    | serial => exact handled rfl
    | joypad => exact fourth raised

/-- The source that is found is the lowest one raised among those that have a
handler. -/
theorem first?_spec {pending : UInt8} {source : Interrupt} {vector : UInt16}
    (found : first? pending = some (source, vector)) :
    (source, vector) ∈ [(vblank, 0x40), (lcdStat, 0x48), (timer, 0x50), (joypad, 0x60)] ∧
      source.RaisedIn pending ∧
      ∀ other : Interrupt, other ≠ serial -> other.place < source.place ->
        ¬ other.RaisedIn pending := by
  rcases first?_cases pending with
    ⟨raised, same⟩ | ⟨first, raised, same⟩ | ⟨first, second, raised, same⟩ |
    ⟨first, second, third, raised, same⟩ | ⟨-, -, -, -, same⟩
  · cases same.symm.trans found
    refine ⟨by decide, raised, fun other handled lower => ?_⟩
    cases other <;> first | cases handled rfl | exact absurd lower (by decide)
  · cases same.symm.trans found
    refine ⟨by decide, raised, fun other handled lower => ?_⟩
    cases other <;> first | exact first | exact absurd lower (by decide)
  · cases same.symm.trans found
    refine ⟨by decide, raised, fun other handled lower => ?_⟩
    cases other <;> first | exact first | exact second | exact absurd lower (by decide)
  · cases same.symm.trans found
    refine ⟨by decide, raised, fun other handled lower => ?_⟩
    cases other <;>
      first | exact first | exact second | exact third | exact absurd rfl handled |
        exact absurd lower (by decide)
  · cases same.symm.trans found

end Interrupt

end Dmg
