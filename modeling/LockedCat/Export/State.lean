import LockedCat.Export.Path
import LockedCat.Export.Volume
import LockedCat.Host
import LockedCat.Moment
import LockedCat.Provider
import LockedCat.Text.Glyph

/-!
# The state of an export

The files below the root of an export, the sessions with its volumes and the open files. Of the
machine around it an export knows what the state says: the time, the network, and where a path
leads that does not stay below the root. These answers are the same throughout. Below the root
there are no symbolic links and everyone may read and write everything, and the machine raises no
errors of its own: a file that was opened can be read and closed, and a log can be written to.

A lock belongs to the open file through which it was taken. It excludes the locks of every other
open file on the same file, except that locks for reading never exclude one another, and it ends
when the open file is closed.
-/

namespace LockedCat.Export

/-- Two locks of these kinds on one file cannot be held at once. -/
def excludes : LockKind → LockKind → Bool
  | .read, .read => false
  | _, _ => true

/-- An open file. -/
structure Handle where
  /-- The identity of the file. -/
  file : Nat
  /-- The path inside the volume that it was opened by. -/
  path : String
  volume : Nat
  position : Nat := 0
  lock : Option LockKind := none
deriving Repr

/-- Where a path leads. -/
inductive Destination where
  /-- To where this route below the root leads. -/
  | within (route : Route)
  /-- To a file that is not below the root. -/
  | elsewhere (id : Nat)
deriving DecidableEq, Repr

structure State where
  /-- The path of the root. -/
  root : String
  tree : Tree := {}
  now : Moment
  volumes : List Volume := []
  /-- The files opened so far; one that was closed has no handle any more. -/
  handles : List (Option Handle) := []
  network : Network := {}
  /-- Where a path leads that does not stay below the root, if a file can be opened there at its
  end or made. -/
  beyond : String → Except IoError Destination := fun _ => .error (.errno Errno.notFound)

namespace State

def volume? (s : State) (v : Nat) : Option Volume := s.volumes[v]?

def setVolume (s : State) (v : Nat) (volume : Volume) : State :=
  { s with volumes := s.volumes.set v volume }

/-- An open file that was not closed yet. -/
def handle? (s : State) (f : Nat) : Option Handle := (s.handles[f]?).getD none

def setHandle (s : State) (f : Nat) (h : Option Handle) : State :=
  { s with handles := s.handles.set f h }

/-- The line that a diagnostic makes in a log. -/
def line (s : State) (message : String) : String :=
  "[" ++ s.now.logged ++ "] " ++ Level.debug.name ++ " [export] " ++ message ++ "\n"

/-- What a volume says goes to its log if it has one, and is an event otherwise. -/
def say (s : State) (v : Nat) (message : String) : State × List Note :=
  match (s.volume? v).bind Volume.log with
  | none => (s, [.event ⟨.debug, message⟩])
  | some (log, most) =>
      if Level.debug.within most then
        match log with
        | .file id => ({ s with tree := s.tree.append id (s.line message).toUTF8.toList }, [])
        | .stderr => (s, [.line (s.line message)])
        | .elsewhere id => (s, [.record id (s.line message)])
      else (s, [])

/-- The node under names that lead from the root, by a path that the operating system is asked
for. -/
def find (s : State) (path : String) (names : List String) : Except IoError Node :=
  match Path.rejection? path with
  | some e => .error e
  | none => s.tree.lookup { names := names }

/-- Whether no other open file on the same file holds a lock that excludes one of this kind. -/
def isFree (s : State) (f : Nat) (h : Handle) (kind : LockKind) : Bool :=
  s.handles.zipIdx.all fun (other, g) =>
    g = f || other.all fun h' => h'.file ≠ h.file || !h'.lock.any (excludes kind)

/-- Leaves an open file behind without a word, which frees its lock. -/
def drop (s : State) (f : Nat) : State := s.setHandle f none

theorem handle?_setHandle_self {s : State} {f : Nat} {h h' : Handle} (hf : s.handle? f = some h) :
    (s.setHandle f (some h')).handle? f = some h' := by
  have hlt : f < s.handles.length := by
    rcases Nat.lt_or_ge f s.handles.length with hl | hl
    · exact hl
    · simp [handle?, List.getElem?_eq_none hl] at hf
  simp [handle?, setHandle, hlt]

/-- Where a path leads. It is the machine's to say unless the path begins with the root and comes
to the directory of its last name without a step above the root. -/
def destination (s : State) (path : String) : Except IoError Destination :=
  match Path.rejection? path, Path.below? s.root path with
  | some e, _ => .error e
  | none, none => s.beyond path
  | none, some rest =>
      let r := Route.ofChars rest
      if s.tree.leaves [] r.names.dropLast then s.beyond path else .ok (.within r)

/-! ### What others do to the files -/

/-- The route to a path that leads below the root. -/
def route (s : State) (path : String) : Except IoError Route :=
  match s.destination path with
  | .error e => .error e
  | .ok (.elsewhere _) => .error (.errno Errno.notFound)
  | .ok (.within r) => .ok r

/-- Makes the file with this path hold something else. -/
def put (s : State) (path : String) (contents : Contents) : Except IoError State :=
  match s.route path with
  | .error e => .error e
  | .ok r => (s.tree.put r contents).map fun tree => { s with tree := tree }

/-- Takes the name of the file with this path away. -/
def remove (s : State) (path : String) : Except IoError State :=
  match s.route path with
  | .error e => .error e
  | .ok r => (s.tree.remove r).map fun tree => { s with tree := tree }

/-- What the file with this path holds. -/
def contents (s : State) (path : String) : Except IoError Contents :=
  match s.route path with
  | .error e => .error e
  | .ok r =>
      match s.tree.lookup r with
      | .error e => .error e
      | .ok .directory => .error (.errno Errno.isADirectory)
      | .ok (.file id) => .ok (s.tree.contents id)

/-- The lines of the file with this path, what is no text in them replaced. -/
def lines (s : State) (path : String) : Except IoError (List String) :=
  match s.contents path with
  | .error e => .error e
  | .ok contents => .ok (Text.lines (Text.Glyphs.ofBytes contents.toList).shown.toList)

end State

end LockedCat.Export
