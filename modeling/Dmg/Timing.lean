/-!
# Elapsed time

One machine cycle is four clock cycles.  Time is kept in clock cycles, and the
machine cycles are read off it, so the two counts cannot drift apart.
-/

namespace Dmg

/-- A span of time. -/
@[ext] structure Timing where
  /-- Its length in clock cycles. -/
  clocks : Nat
  deriving DecidableEq, Repr

namespace Timing

def zero : Timing := ⟨0⟩

/-- The whole machine cycles in a span. -/
@[inline] def machine (timing : Timing) : Nat :=
  timing.clocks / 4

instance : Add Timing := ⟨fun first second => ⟨first.clocks + second.clocks⟩⟩

instance : Inhabited Timing := ⟨zero⟩

@[simp] theorem clocks_add (first second : Timing) :
    (first + second).clocks = first.clocks + second.clocks := rfl

end Timing

end Dmg
