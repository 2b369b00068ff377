import Mathlib.Algebra.Group.Int.Defs
import Mathlib.Algebra.Group.Nat.Defs
import Mathlib.Logic.Function.Iterate

/-!
# Checked sums, differences and places

A machine that is built out of words of a fixed size and memories of a fixed length
can fail where this one cannot: a sum may not fit, a difference may fall below zero,
and a place may lie behind the end of a memory.  The definitions below have no answer
in these cases.  The modules that follow write out with them what the devices
compute, and show that there always is an answer, and that it is the one that the
devices give.
-/

namespace Dmg

namespace Checked

/-! ## Single checks -/

/-- A sum that has to fit so many bits. -/
def add (bits first second : Nat) : Option Nat :=
  if first + second < 2 ^ bits then some (first + second) else none

/-- A difference that must not fall below zero. -/
def sub (first second : Nat) : Option Nat :=
  if second <= first then some (first - second) else none

/-- A number that has to fit so many bits, one of which is for its sign. -/
def signed (bits : Nat) (number : Int) : Option Int :=
  if -2 ^ (bits - 1) <= number ∧ number < 2 ^ (bits - 1) then some number else none

/-- A remainder, which no number leaves by zero. -/
def rem (number divisor : Nat) : Option Nat :=
  if divisor = 0 then none else some (number % divisor)

/-- Store a value in a place that has to be there. -/
def store {Value : Type} {size : Nat} (values : Vector Value size) (place : Nat) (value : Value) :
    Option (Vector Value size) :=
  if inside : place < size then some (values.set place value) else none

theorem add_eq {bits first second : Nat} (fits : first + second < 2 ^ bits) :
    add bits first second = some (first + second) :=
  if_pos fits

theorem sub_eq {first second : Nat} (ordered : second <= first) :
    sub first second = some (first - second) :=
  if_pos ordered

/-- Taking the base off a place leaves the offset. -/
theorem bind_sub_eq {Answer : Type} {sum base rest : Nat} (place : sum = base + rest)
    (next : Nat -> Option Answer) : (sub sum base >>= next) = next rest := by
  rw [sub_eq (by omega), place, Nat.add_sub_cancel_left]
  rfl

theorem signed_eq {bits : Nat} {number : Int} (low : -2 ^ (bits - 1) <= number)
    (high : number < 2 ^ (bits - 1)) : signed bits number = some number :=
  if_pos ⟨low, high⟩

theorem rem_eq {number divisor : Nat} (positive : 0 < divisor) :
    rem number divisor = some (number % divisor) :=
  if_neg (Nat.ne_of_gt positive)

/-- The byte that is left of a number that does not fit. -/
theorem ofInt_natCast (number : Nat) : UInt8.ofInt number = UInt8.ofNat number := by
  have rest : ((number : Int) % 2 ^ 8).toNat = number % 2 ^ 8 := by omega
  rw [UInt8.ofInt, rest, UInt8.ofNat_mod_size]

theorem eq_of_add_eq_some {bits first second sum : Nat} (added : add bits first second = some sum) :
    sum = first + second := by
  rw [add] at added
  split at added
  · exact (Option.some.inj added).symm
  · cases added

theorem lt_of_add_eq_some {bits first second sum : Nat} (added : add bits first second = some sum) :
    first + second < 2 ^ bits := by
  rw [add] at added
  split at added
  · assumption
  · cases added

theorem lt_of_sub_eq_some {first second rest : Nat} (positive : 0 < second)
    (taken : sub first second = some rest) : rest < first := by
  rw [sub] at taken
  split at taken
  · cases taken
    omega
  · cases taken

/-! ## Loops -/

section Loops

variable {Item State Image : Type}

/-- A loop whose every pass has an answer has an answer.  The checked passes may be
about an image of what the others are about. -/
theorem foldlM_eq_some {step? : Image -> Item -> Option Image} {step : State -> Item -> State}
    (image : State -> Image) (holds : State -> Prop) {items : List Item}
    (pass : ∀ item ∈ items, ∀ state, holds state ->
      step? (image state) item = some (image (step state item)) ∧ holds (step state item))
    {state : State} (start : holds state) :
    items.foldlM step? (image state) = some (image (items.foldl step state)) := by
  induction items generalizing state with
  | nil => rfl
  | cons item items inductionHypothesis =>
      rcases List.forall_mem_cons.mp pass with ⟨first, others⟩
      rcases first state start with ⟨answer, kept⟩
      rw [List.foldlM_cons, answer, List.foldl_cons]
      exact inductionHypothesis others kept

/-- Take a period off a clock as often as the clock has one, and do something each
time. -/
def drain? (period : Nat) (positive : 0 < period) (tick? : State -> Option State) (clock : Nat)
    (state : State) : Option (Nat × State) :=
  if period <= clock then
    match taken : sub clock period with
    | none => none
    | some rest =>
        have := lt_of_sub_eq_some positive taken
        match tick? state with
        | none => none
        | some next => drain? period positive tick? rest next
  else some (clock, state)
termination_by clock

theorem drain?_eq {period : Nat} (positive : 0 < period) {tick? : State -> Option State}
    {tick : State -> State} (ticks : ∀ state, tick? state = some (tick state)) (clock : Nat)
    (state : State) :
    drain? period positive tick? clock state =
      some (clock % period, tick^[clock / period] state) := by
  fun_induction drain? period positive tick? clock state with
  | case1 clock state more taken =>
      rw [sub_eq more] at taken
      cases taken
  | case2 clock state more rest taken shorter none =>
      rw [ticks] at none
      cases none
  | case3 clock state more rest taken shorter next some inductionHypothesis =>
      rw [ticks] at some
      rw [sub_eq more] at taken
      cases some
      cases taken
      rw [inductionHypothesis, Nat.mod_eq_sub_mod more, Nat.div_eq_sub_div positive more,
        Function.iterate_succ_apply]
  | case4 clock state spent =>
      have less : clock < period := Nat.not_le.mp spent
      rw [Nat.mod_eq_of_lt less, Nat.div_eq_of_lt less, Function.iterate_zero_apply]

end Loops

/-! ## Loops that fill a memory -/

section Overwrite

variable {Value : Type} {size : Nat}

theorem set_eq_setIfInBounds {place : Nat} (inside : place < size) (values : Vector Value size)
    (value : Value) : values.set place value = values.setIfInBounds place value := by
  apply Vector.ext
  intro other within
  rw [Vector.getElem_setIfInBounds, Vector.getElem_set]

theorem setIfInBounds_self {place : Nat} (inside : place < size) (values : Vector Value size) :
    values.setIfInBounds place values[place] = values := by
  rw [← set_eq_setIfInBounds inside, Vector.set_getElem_self]

theorem store_eq_set {values : Vector Value size} {place : Nat} (inside : place < size)
    (value : Value) : store values place value = some (values.set place value) :=
  dif_pos inside

theorem store_eq {values : Vector Value size} {place : Nat} (inside : place < size)
    (value : Value) : store values place value = some (values.setIfInBounds place value) := by
  rw [store_eq_set inside, set_eq_setIfInBounds inside]

/-- Store a value in a place of some rows, whose places are counted row by row. -/
def storeFlat {width height : Nat} (rows : Vector (Vector Value width) height) (place : Nat)
    (value : Value) : Option (Vector (Vector Value width) height) := do
  let row <- rows[place / width]?
  let stored <- store row (place % width) value
  store rows (place / width) stored

theorem storeFlat_eq {width height row column : Nat} (above : row < height)
    (beside : column < width) (rows : Vector (Vector Value width) height)
    (line : Vector Value width) (value : Value) :
    storeFlat (rows.setIfInBounds row line) (width * row + column) value =
      some (rows.setIfInBounds row (line.setIfInBounds column value)) := by
  have quotient : (width * row + column) / width = row := by
    rw [Nat.mul_add_div (Nat.zero_lt_of_lt beside), Nat.div_eq_of_lt beside, Nat.add_zero]
  have remainder : (width * row + column) % width = column := by
    rw [Nat.mul_add_mod, Nat.mod_eq_of_lt beside]
  rw [storeFlat, quotient, remainder, getElem?_pos _ row above, Vector.getElem_setIfInBounds_self]
  simp only [Option.bind_eq_bind, Option.bind_some, store_eq beside, store_eq above,
    Vector.setIfInBounds_setIfInBounds]

/-- The values after some places have been given new ones, one after the other. -/
def overwrite (values : Vector Value size) (places : List Nat) (value : Nat -> Value) :
    Vector Value size :=
  places.foldl (fun written place => written.setIfInBounds place (value place)) values

theorem getElem_overwrite (values : Vector Value size) (places : List Nat)
    (value : Nat -> Value) {place : Nat} (inside : place < size) :
    (overwrite values places value)[place] =
      if place ∈ places then value place else values[place] := by
  induction places generalizing values with
  | nil => rfl
  | cons first places inductionHypothesis =>
      change (overwrite (values.setIfInBounds first (value first)) places value)[place] = _
      rw [inductionHypothesis, Vector.getElem_setIfInBounds]
      by_cases later : place ∈ places
      · rw [if_pos later, if_pos (List.mem_cons_of_mem first later)]
      · by_cases same : first = place
        · subst same
          rw [if_neg later, if_pos rfl, if_pos List.mem_cons_self]
        · rw [if_neg later, if_neg same, if_neg]
          exact fun member => (List.mem_cons.mp member).elim (fun equal => same equal.symm) later

/-- A loop over all places leaves nothing of what was there before. -/
theorem overwrite_range (values : Vector Value size) (value : Nat -> Value) :
    overwrite values (List.range size) value = Vector.ofFn fun place => value place.val := by
  apply Vector.ext
  intro place inside
  rw [getElem_overwrite values _ _ inside, if_pos (List.mem_range.mpr inside), Vector.getElem_ofFn]

theorem map_overwrite {Other : Type} (change : Value -> Other) (values : Vector Value size)
    (places : List Nat) (value : Nat -> Value) :
    (overwrite values places value).map change =
      overwrite (values.map change) places fun place => change (value place) := by
  apply Vector.ext
  intro place inside
  rw [Vector.getElem_map, getElem_overwrite _ _ _ inside, getElem_overwrite _ _ _ inside,
    Vector.getElem_map]
  split <;> rfl

/-- A checked loop that gives every place its value. -/
theorem foldlM_range_eq_some {Image : Type} {step? : Image -> Nat -> Option Image}
    (image : Vector Value size -> Image) (value : Fin size -> Value)
    (pass : ∀ (place : Fin size) (values : Vector Value size),
      step? (image values) place.val =
        some (image (values.setIfInBounds place.val (value place))))
    (values : Vector Value size) :
    (List.range size).foldlM step? (image values) = some (image (Vector.ofFn value)) := by
  rcases Nat.eq_zero_or_pos size with rfl | positive
  · have same : values = Vector.ofFn value := Vector.ext fun place inside => by omega
    rw [same]
    rfl
  · have : NeZero size := ⟨Nat.ne_of_gt positive⟩
    have found : (fun place : Fin size => value (Fin.ofNat size place.val)) = value :=
      funext fun place => congrArg value (Fin.ext (Nat.mod_eq_of_lt place.isLt))
    rw [← found, ← overwrite_range values fun place => value (Fin.ofNat size place)]
    refine foldlM_eq_some image (fun _ => True) (fun place member values _ => ⟨?_, trivial⟩) trivial
    have inside := List.mem_range.mp member
    have pass := pass ⟨place, inside⟩ values
    rw [← found] at pass
    exact pass

end Overwrite

end Checked

end Dmg
