/-!
# Ports

A port is written in decimal, possibly after a plus sign and with leading zeros, and is not 0.
-/

namespace LockedCat

namespace Port

/-- The port of a volume server when nothing else is said. -/
def standard : UInt16 := 24007

/-- The number that `acc` becomes with one more digit, while it fits into 16 bits. -/
def shift (acc : Nat) (c : Char) : Option Nat :=
  if c.isDigit then
    let n := acc * 10 + (c.toNat - '0'.toNat)
    if n < 65536 then some n else none
  else none

/-- The number written by digits that follow those of `acc`. -/
def readDigits : Nat → List Char → Option Nat
  | acc, [] => some acc
  | acc, c :: rest => (shift acc c).bind (readDigits · rest)

/-- Leaves out one plus sign. -/
def unsigned : List Char → List Char
  | '+' :: rest => rest
  | cs => cs

/-- Reads a port. -/
def ofChars? (cs : List Char) : Option UInt16 :=
  match unsigned cs with
  | [] => none
  | ds => (readDigits 0 ds).bind fun n => if n = 0 then none else some n.toUInt16

def parse? (text : String) : Option UInt16 := ofChars? text.toList

/-- What is wrong with a text that is no port. -/
def complaint (text : String) : String := "invalid port '" ++ text ++ "'"

end Port

end LockedCat
