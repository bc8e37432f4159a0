import LockedCat.Export.Tree
import LockedCat.Directive
import LockedCat.Event

/-!
# Volumes of an export

A session with a volume: where the volume is, the options that are in effect, and where its
diagnostics go.
-/

namespace LockedCat.Export

/-- Where a volume's diagnostics go. -/
inductive Log where
  /-- A file below the root. -/
  | file (id : Nat)
  | stderr
  /-- A file that is not below the root. -/
  | elsewhere (id : Nat)
deriving DecidableEq, Repr

/-- A session with a volume. -/
structure Volume where
  /-- The path of the volume's directory. -/
  brick : String
  /-- The name of that directory in the root. -/
  name : String
  /-- The options in effect, in the order in which they were first set. -/
  options : List (String × String) := []
  /-- The log and the finest level that it takes. -/
  log : Option (Log × Level) := none
deriving Repr

namespace Volume

/-- The value of an option. -/
def option? (v : Volume) (key : String) : Option String :=
  (v.options.find? (·.1 = key)).map (·.2)

/-- The options after one was set: a key keeps the place where it was first set. -/
def put : List (String × String) → String → String → List (String × String)
  | [], key, value => [(key, value)]
  | (k, old) :: rest, key, value =>
      if k = key then (k, value) :: rest else (k, old) :: put rest key value

def set (v : Volume) (d : Directive) : Volume :=
  { v with options := put v.options d.key d.value }

/-- The names that lead from the volume's directory to a file. No path leads out of a volume. -/
def names (path : String) : Except IoError (List String) :=
  let names := (Route.ofChars path.toList).names.filter (· ≠ ".")
  if ".." ∈ names then .error (.simple .permissionDenied) else .ok names

end Volume

end LockedCat.Export
