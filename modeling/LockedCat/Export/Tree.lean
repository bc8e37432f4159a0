import LockedCat.Contents
import LockedCat.Failure
import LockedCat.Text.Fields

/-!
# File trees

The directories and files below a root. A file has an identity of its own, so that what is done to
a file is done for everyone who has it open, and a file that lost its name can still be read.

Names are looked up one after the other, each in the directory that the ones before it lead to.
What is above the root is no part of a tree: a look-up that comes there stays at the root, and
whether it does so is a question of its own.
-/

namespace LockedCat

inductive Node where
  | directory
  | file (id : Nat)
deriving DecidableEq, Repr

/-- The way to a node: the names on it, and whether the last is followed by a slash. -/
structure Route where
  names : List String
  endsInSlash : Bool := false
deriving DecidableEq, Repr

/-- A route from its text. Empty names lead nowhere. -/
def Route.ofChars (cs : List Char) : Route where
  names := ((Text.fields '/' cs).filter (!·.isEmpty)).map String.ofList
  endsInSlash := cs.getLast? = some '/'

structure Tree where
  /-- The nodes below the root, each under the names that lead to it. -/
  nodes : List (List String × Node) := []
  /-- The contents of the files. -/
  files : List Contents := []
deriving Repr

namespace Tree

/-- The longest name of a node in bytes. -/
def nameLimit : Nat := 255

/-- What is under exactly these names. -/
def node? (t : Tree) (names : List String) : Option Node :=
  if names.isEmpty then some .directory else (t.nodes.find? (·.1 = names)).map (·.2)

def contents (t : Tree) (id : Nat) : Contents := (t.files[id]?).getD #[]

def setContents (t : Tree) (id : Nat) (contents : Contents) : Tree :=
  { t with files := t.files.set id contents }

/-- Writes at the end of a file. -/
def append (t : Tree) (id : Nat) (bytes : List UInt8) : Tree :=
  t.setContents id (t.contents id ++ bytes)

/-- Goes from the directory under `here` along more names. -/
def walk (t : Tree) (here : List String) : List String → Except IoError (List String)
  | [] => .ok here
  | name :: rest =>
      match t.node? here with
      | none => .error (.errno Errno.notFound)
      | some (.file _) => .error (.errno Errno.notADirectory)
      | some .directory =>
          if name = "." then walk t here rest
          else if name = ".." then walk t here.dropLast rest
          else if nameLimit < name.utf8ByteSize then .error (.errno Errno.nameTooLong)
          else if (t.node? (here ++ [name])).isNone then .error (.errno Errno.notFound)
          else walk t (here ++ [name]) rest

/-- Whether the way from the directory under `here` along more names leads above the root. -/
def leaves (t : Tree) (here : List String) : List String → Bool
  | [] => false
  | name :: rest =>
      match t.walk here [name] with
      | .error _ => false
      | .ok there => (here.isEmpty && name = "..") || leaves t there rest

/-- The node at the end of a route. -/
def lookup (t : Tree) (r : Route) : Except IoError Node :=
  match t.walk [] r.names with
  | .error e => .error e
  | .ok names =>
      match t.node? names with
      | none => .error (.errno Errno.notFound)
      | some (.file id) =>
          if r.endsInSlash then .error (.errno Errno.notADirectory) else .ok (.file id)
      | some .directory => .ok .directory

/-- A route that ends in the name of a node that a directory can hold. -/
structure Place where
  directory : List String
  name : String

/-- The names of a node in this place. -/
def Place.names (p : Place) : List String := p.directory ++ [p.name]

/-- The place at the end of a route. -/
def place (t : Tree) (r : Route) : Except IoError Place :=
  match r.names.getLast? with
  | none => .error (.errno Errno.isADirectory)
  | some name =>
      match t.walk [] r.names.dropLast with
      | .error e => .error e
      | .ok directory =>
          match t.node? directory with
          | none => .error (.errno Errno.notFound)
          | some (.file _) => .error (.errno Errno.notADirectory)
          | some .directory =>
              if name = "." ∨ name = ".." then .error (.errno Errno.isADirectory)
              else .ok ⟨directory, name⟩

/-- Opens the file at the end of a route for writing and makes it if there is none. -/
def create (t : Tree) (r : Route) : Except IoError (Nat × Tree) :=
  match t.place r with
  | .error e => .error e
  | .ok p =>
      if r.endsInSlash then .error (.errno Errno.isADirectory)
      else if nameLimit < p.name.utf8ByteSize then .error (.errno Errno.nameTooLong)
      else
        match t.node? p.names with
        | some .directory => .error (.errno Errno.isADirectory)
        | some (.file id) => .ok (id, t)
        | none =>
            .ok (t.files.length, {
              nodes := t.nodes ++ [(p.names, .file t.files.length)]
              files := t.files ++ [#[]] })

/-- Makes a file hold something else. -/
def put (t : Tree) (r : Route) (contents : Contents) : Except IoError Tree :=
  (t.create r).map fun (id, t) => t.setContents id contents

/-- Takes a file's name away. -/
def remove (t : Tree) (r : Route) : Except IoError Tree :=
  match t.place r, t.lookup r with
  | .error e, _ => .error e
  | _, .error e => .error e
  | .ok _, .ok .directory => .error (.errno Errno.isADirectory)
  | .ok p, .ok (.file _) => .ok { t with nodes := t.nodes.filter (·.1 ≠ p.names) }

/-- Makes the directories on the way from the directory under `here` along these names. -/
def makeDirectories (t : Tree) (here : List String) : List String → Tree
  | [] => t
  | name :: rest =>
      let names := here ++ [name]
      let t := if (t.node? names).isSome then t
        else { t with nodes := t.nodes ++ [(names, .directory)] }
      makeDirectories t names rest

end Tree

end LockedCat
