/-!
# Sets of code points

A set of code points is written as the ascending list of the places where membership changes,
the first being where it begins.
-/

namespace LockedCat.Text

/-- Whether a code point lies in the set with these boundaries. -/
def inRanges (bounds : List Nat) (c : Char) : Bool :=
  (bounds.takeWhile (· ≤ c.toNat)).length % 2 == 1

end LockedCat.Text
