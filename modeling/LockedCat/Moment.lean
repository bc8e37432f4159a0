/-!
# Moments

A moment in universal time, and the two ways of writing it that diagnostics and events use.
-/

namespace LockedCat

structure Moment where
  year : Nat
  month : Nat
  day : Nat
  hour : Nat := 0
  minute : Nat := 0
  second : Nat := 0
  microsecond : Nat := 0
deriving DecidableEq, Repr

namespace Moment

/-- A number with leading zeros up to a width. -/
def padded (width n : Nat) : String :=
  let digits := Nat.toDigits 10 n
  String.ofList (List.replicate (width - digits.length) '0' ++ digits)

def date (m : Moment) : String :=
  padded 4 m.year ++ "-" ++ padded 2 m.month ++ "-" ++ padded 2 m.day

def time (m : Moment) : String :=
  padded 2 m.hour ++ ":" ++ padded 2 m.minute ++ ":" ++ padded 2 m.second ++ "."
    ++ padded 6 m.microsecond

/-- The moment in words of a log. -/
def logged (m : Moment) : String := m.date ++ " " ++ m.time

/-- The moment as one word. -/
def word (m : Moment) : String := m.date ++ "T" ++ m.time ++ "Z"

end Moment

end LockedCat
