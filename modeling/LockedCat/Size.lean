/-!
# Amounts of data

An amount below 1024 bytes is written in bytes, any other in the largest binary unit that it
reaches, with one decimal. The amount is first rounded to 53 significant bits, and the unit is
chosen for the rounded amount; the decimal is rounded to nearest. Both times a half goes to the
even neighbour.
-/

namespace LockedCat.Size

/-- The quotient rounded to nearest, a half to the even neighbour. -/
def roundDiv (num den : Nat) : Nat :=
  let q := num / den
  let twice := 2 * (num % den)
  if twice > den || (twice = den && q % 2 = 1) then q + 1 else q

/-- The amount rounded to 53 significant bits. -/
def significant (n : Nat) : Nat :=
  let excess := n.log2 - 52
  roundDiv n (1 <<< excess) <<< excess

def units : List String := ["KiB", "MiB", "GiB", "TiB", "PiB", "EiB"]

/-- The unit of an amount of at least `size` bytes, and its size, among `unit` and the larger
units after it. -/
def chooseUnit (n : Nat) : Nat → String → List String → Nat × String
  | size, unit, [] => (size, unit)
  | size, unit, larger :: rest =>
      if size * 1024 ≤ n then chooseUnit n (size * 1024) larger rest else (size, unit)

def display (n : Nat) : String :=
  if n < 1024 then toString n ++ " B"
  else
    let amount := significant n
    let (size, unit) := chooseUnit amount 1024 "KiB" (units.drop 1)
    let tenths := roundDiv (amount * 10) size
    toString (tenths / 10) ++ "." ++ toString (tenths % 10) ++ " " ++ unit

end LockedCat.Size
