import LockedCat.Text.Fields

/-!
# Addresses

Network addresses and the texts that name them. An address of version 4 has up to four parts in
decimal, octal or hexadecimal, and the last part fills what the others leave. An address of
version 6 has eight groups in hexadecimal; `::` stands for groups that are zero, and the last two
groups may be written like an address of version 4 in decimal.
-/

namespace LockedCat

inductive Address where
  | v4 (bits : Nat)
  | v6 (groups : List Nat)
deriving DecidableEq, Repr

namespace Address

/-- An address at which a machine reaches itself. -/
def isLoopback : Address → Bool
  | v4 bits => bits / 0x1000000 = 127
  | v6 groups => groups = [0, 0, 0, 0, 0, 0, 0, 1]

/-- An address that holds on one link only: the first group is `fe80` to `febf`, or that of a group
of receivers on one machine or one link. -/
def isConfined : Address → Bool
  | v6 (first :: _) =>
      first / 0x40 = 0x3fa || (first / 0x100 = 0xff && (first % 0x10 = 1 || first % 0x10 = 2))
  | _ => false

/-- The value of a digit. -/
def digit? (base : Nat) (c : Char) : Option Nat :=
  let value :=
    if c.isDigit then c.toNat - '0'.toNat
    else if 'a' ≤ c ∧ c ≤ 'f' then c.toNat - 'a'.toNat + 10
    else if 'A' ≤ c ∧ c ≤ 'F' then c.toNat - 'A'.toNat + 10
    else base
  if value < base then some value else none

/-- A number of at least one digit. -/
def number? (base : Nat) (cs : List Char) : Option Nat :=
  if cs.isEmpty then none
  else (cs.mapM (digit? base)).map fun ds => ds.foldl (fun n d => n * base + d) 0

/-- A part of an address of version 4: the base is seen from how it begins. -/
def part? : List Char → Option Nat
  | '0' :: 'x' :: rest | '0' :: 'X' :: rest => number? 16 rest
  | '0' :: c :: rest => number? 8 (c :: rest)
  | cs => number? 10 cs

/-- How many values the part after so many others can have. -/
def room : Nat → Nat
  | 0 => 0x100000000
  | 1 => 0x1000000
  | 2 => 0x10000
  | 3 => 0x100
  | _ => 0

/-- An address of version 4. Each part but the last is a byte. -/
def v4? (cs : List Char) : Option Address := do
  let parts ← (Text.fields '.' cs).mapM part?
  let last ← parts.getLast?
  let leading := parts.dropLast
  let room := room leading.length
  if leading.all (· < 256) ∧ last < room then
    some (.v4 (leading.foldl (fun n b => n * 256 + b) 0 * room + last))
  else none

/-- A byte in decimal without leading zeros. -/
def byte? (cs : List Char) : Option Nat := do
  let n ← number? 10 cs
  if n < 256 ∧ (cs.head? ≠ some '0' ∨ cs = ['0']) then some n else none

/-- Two groups that are written as four bytes. -/
def quad? (cs : List Char) : Option (List Nat) := do
  match ← (Text.fields '.' cs).mapM byte? with
  | [a, b, c, d] => some [a * 256 + b, c * 256 + d]
  | _ => none

def group? (cs : List Char) : Option Nat := if cs.length ≤ 4 then number? 16 cs else none

/-- What stands at the end of an address of version 6. -/
def ending? (cs : List Char) : Option (List Nat) :=
  match group? cs with
  | some g => some [g]
  | none => quad? cs

/-- Groups on one side of a gap, none if the text is empty. `last?` reads the last field. -/
def groups? (last? : List Char → Option (List Nat)) (cs : List Char) : Option (List Nat) :=
  if cs.isEmpty then some []
  else do
    let fields := Text.fields ':' cs
    let front ← fields.dropLast.mapM group?
    let back ← fields.getLast?.bind last?
    some (front ++ back)

/-- What stands before and after the first gap. -/
def splitGap? : List Char → Option (List Char × List Char)
  | ':' :: ':' :: rest => some ([], rest)
  | c :: cs => (splitGap? cs).map fun (before, after) => (c :: before, after)
  | [] => none

/-- An address of version 6. A gap stands for at least one group. -/
def v6? (cs : List Char) : Option Address :=
  match splitGap? cs with
  | none => do
      let groups ← groups? ending? cs
      if groups.length = 8 then some (.v6 groups) else none
  | some (before, after) => do
      let front ← groups? (fun cs => (group? cs).map ([·])) before
      let back ← groups? ending? after
      let missing := 8 - (front.length + back.length)
      if 0 < missing then some (.v6 (front ++ List.replicate missing 0 ++ back)) else none

/-- The link that every machine has, the one to itself. -/
def localLink : List Char := "lo".toList

/-- The most bytes in the name of a link. -/
def linkNameLimit : Nat := 15

/-- Whether a text names a link. What follows a colon counts for the length only. -/
def isLinkName (cs : List Char) : Bool :=
  cs.takeWhile (· ≠ ':') = localLink && (String.ofList cs).utf8ByteSize ≤ linkNameLimit

/-- Whether a text names a zone of an address: by its number or, if the address holds on one link
only, by the name of the link. -/
def hasZone (a : Address) (zone : List Char) : Bool :=
  (a.isConfined && isLinkName zone) || (number? 10 zone).any (· < 0x100000000)

/-- An address of version 6 that may be followed by a zone. -/
def zoned? (cs : List Char) : Option Address :=
  match cs.dropWhile (· ≠ '%') with
  | [] => v6? cs
  | _ :: zone => (v6? (cs.takeWhile (· ≠ '%'))).filter (·.hasZone zone)

def parse? (s : String) : Option Address :=
  match v4? s.toList with
  | some a => some a
  | none => zoned? s.toList

end Address

end LockedCat
