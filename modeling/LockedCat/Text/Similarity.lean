/-!
# Similar words

The similarity of two words is the mean of three shares: of each word the share of letters that
the other has near the same place, and of these letters the share that stand in the same order.
-/

namespace LockedCat.Text

/-- Marks the first unused place from `least` on that holds the letter. -/
def claim (c : Char) (least : Nat) : Nat → List (Char × Bool) → Option (List (Char × Bool))
  | _, [] => none
  | 0, _ => none
  | most + 1, (d, used) :: rest =>
      if least = 0 && c = d && !used then some ((d, true) :: rest)
      else (claim c (least - 1) most rest).map ((d, used) :: ·)

/-- The letters of `a` that have a partner in `b` at most `range` places away, and `b` with the
partners marked. -/
def pairUp (range : Nat) : Nat → List Char → List (Char × Bool) → List Char × List (Char × Bool)
  | _, [], b => ([], b)
  | i, c :: rest, b =>
      match claim c (i - range) (i + range + 1) b with
      | some b =>
          let (found, b) := pairUp range (i + 1) rest b
          (c :: found, b)
      | none => pairUp range (i + 1) rest b

/-- The similarity of two words, from 0 to 1. -/
def similarity (a b : List Char) : Float :=
  if a.isEmpty && b.isEmpty then 1
  else
    let range := max a.length b.length / 2 - 1
    let (inA, marked) := pairUp range 0 a (b.map (·, false))
    let inB := (marked.filter (·.2)).map (·.1)
    let moved := ((inA.zip inB).filter fun p => p.1 != p.2).length / 2
    let count := inA.length
    if count = 0 then 0
    else
      (count.toFloat / a.length.toFloat + count.toFloat / b.length.toFloat
        + (count - moved).toFloat / count.toFloat) / 3

/-- The word most similar to `word`, the later one of equals, if it is similar at all. -/
def mostSimilar (word : String) (known : List String) : Option String :=
  let better (best : Option (Float × String)) (w : String) : Option (Float × String) :=
    let score := similarity word.toList w.toList
    if score > 0.7 then
      match best with
      | some (top, _) => if score < top then best else some (score, w)
      | none => some (score, w)
    else best
  (known.foldl better none).map (·.2)

end LockedCat.Text
