/-!
# Contents

What a file holds, and the stretches of it that reads give.
-/

namespace LockedCat

abbrev Contents := Array UInt8

namespace Contents

/-- The bytes from `start` up to but not including `stop`. -/
def stretch (c : Contents) (start stop : Nat) : List UInt8 := (c.extract start stop).toList

theorem stretch_eq (c : Contents) (start stop : Nat) :
    c.stretch start stop = (c.toList.drop start).take (stop - start) := by
  simp [stretch, List.extract_eq_take_drop]

theorem length_stretch (c : Contents) (start stop : Nat) :
    (c.stretch start stop).length = min stop c.size - start := by
  simp only [stretch, Array.length_toList, Array.size_extract]

/-- A stretch ends with the contents at the latest. -/
theorem stretch_min_size (c : Contents) (start stop : Nat) :
    c.stretch start (min stop c.size) = c.stretch start stop := by
  rw [stretch_eq, stretch_eq, List.take_eq_take_iff, List.length_drop, Array.length_toList]
  omega

theorem lt_of_stretch_ne_nil {c : Contents} {start stop : Nat} (h : c.stretch start stop ≠ []) :
    start < min stop c.size := by
  have := List.length_pos_iff.mpr h
  rw [length_stretch] at this
  omega

end Contents

end LockedCat
