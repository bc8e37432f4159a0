import LockedCat.Contents
import LockedCat.Provider

/-!
# Volumes in memory

A volume whose files are held in memory and that counts what is done to it. It can be told to
reject an option, to fail reads after some bytes of a file, to fail every close, to be unreachable,
and that others hold locks on some of its files.

An open file reads what the file held when it was opened. It is read only under a lock.
-/

namespace LockedCat

namespace Memory

/-- An open file. -/
structure Handle where
  path : String
  contents : Contents
  position : Nat := 0
  locked : Bool := false
deriving Repr

namespace Handle

/-- How much of the file is left. -/
def left (h : Handle) : Nat := h.contents.size - h.position

/-- Where a read ends: after what was asked for, at the end of the file, or at the `limit` where
reads begin to fail. -/
def stop (h : Handle) (limit : Option Nat) (size : Nat) : Nat :=
  let stop := min (h.position + size) h.contents.size
  match limit with
  | some limit => min stop limit
  | none => stop

def read (h : Handle) (limit : Option Nat) (size : Nat) : Except IoError (List UInt8) × Handle :=
  if !h.locked then (.error (.custom .other "read issued before lock"), h)
  else if limit.any (· ≤ h.position) then (.error (.errno Errno.inputOutput), h)
  else
    (.ok (h.contents.stretch h.position (h.stop limit size)),
      { h with position := h.stop limit size })

theorem stop_le (h : Handle) (limit : Option Nat) (size : Nat) :
    h.stop limit size ≤ h.position + size ∧ h.stop limit size ≤ h.contents.size := by
  unfold stop
  cases limit <;> simp only <;> omega

theorem length_of_read {h : Handle} {limit : Option Nat} {size : Nat} {bytes : List UInt8}
    (hr : (h.read limit size).1 = .ok bytes) : bytes.length ≤ size := by
  unfold read at hr
  split at hr
  · cases hr
  · split at hr
    · cases hr
    · cases hr
      have := (h.stop_le limit size).1
      rw [Contents.length_stretch]
      omega

theorem left_read_lt {h : Handle} {limit : Option Nat} {size : Nat}
    (hc : Continues (h.read limit size).1) : (h.read limit size).2.left < h.left := by
  unfold read at hc ⊢
  split at hc
  · simp [Continues, IoError.isInterrupted, IoError.kind] at hc
  · rename_i hl
    rw [if_neg hl]
    split at hc
    · simp [Continues, IoError.isInterrupted, IoError.kind, Errno.kind, Errno.inputOutput] at hc
    · rename_i hp
      rw [if_neg hp]
      have hlt := Contents.lt_of_stretch_ne_nil hc
      simp only [left]
      omega

end Handle

structure State where
  files : List (String × Contents) := []
  /-- The files on which others hold locks. -/
  foreignLocks : List String := []
  rejectedKey : Option String := none
  failReadAfter : Option Nat := none
  failClose : Bool := false
  unreachable : Bool := false
  /-- The files opened so far; one that was closed has no handle any more. -/
  handles : List (Option Handle) := []
  connectedTo : List Locator := []
  applied : List Directive := []
  logging : Option (String × Level) := none
  locksTaken : List LockKind := []
  openHandles : Nat := 0
  closeCount : Nat := 0
  readCalls : Nat := 0
  mostAsked : Nat := 0
  finishCount : Nat := 0
deriving Repr

namespace State

/-- What the volume holds under a path. -/
def contents? (s : State) (path : String) : Option Contents :=
  (s.files.find? (·.1 = path)).map (·.2)

/-- An open file that was not closed yet. -/
def handle? (s : State) (f : Nat) : Option Handle := (s.handles[f]?).getD none

def setHandle (s : State) (f : Nat) (h : Option Handle) : State :=
  { s with handles := s.handles.set f h }

/-- A volume that was ended can be used no more. -/
def isFinished (s : State) : Bool := 0 < s.finishCount

def connect (s : State) (url : Locator) : Reply State Chain Unit :=
  { state := { s with connectedTo := s.connectedTo ++ [url] }
    result :=
      if s.unreachable then .error { root := "Transport endpoint is not connected" } else .ok () }

def setOption (s : State) (d : Directive) : Reply State Chain Unit :=
  if s.isFinished then ⟨s, .error { root := "session already finalized" }, []⟩
  else if s.rejectedKey = some d.key then ⟨s, .error { root := "Invalid argument" }, []⟩
  else ⟨{ s with applied := s.applied ++ [d] }, .ok (), []⟩

def setLogging (s : State) (sink : String) (level : Level) : Reply State Chain Unit :=
  ⟨{ s with logging := some (sink, level) }, .ok (), []⟩

def openFile (s : State) (path : String) : Reply State IoError Nat :=
  if s.isFinished then ⟨s, .error (.errno Errno.notConnected), []⟩
  else
    match s.contents? path with
    | none => ⟨s, .error (.errno Errno.notFound), []⟩
    | some contents =>
        { state := { s with
            openHandles := s.openHandles + 1
            handles := s.handles ++ [some { path := path, contents := contents }] }
          result := .ok s.handles.length }

def lock (s : State) (f : Nat) (kind : LockKind) : Reply State IoError Unit :=
  match s.handle? f with
  | none => ⟨s, .error (.errno Errno.badDescriptor), []⟩
  | some h =>
      let s := { s with locksTaken := s.locksTaken ++ [kind] }
      if h.path ∈ s.foreignLocks then ⟨s, .error (.errno Errno.wouldBlock), []⟩
      else ⟨s.setHandle f (some { h with locked := true }), .ok (), []⟩

/-- Counts a read. -/
def count (s : State) (size : Nat) : State :=
  { s with readCalls := s.readCalls + 1, mostAsked := max s.mostAsked size }

def read (s : State) (f size : Nat) : Reply State IoError (List UInt8) :=
  match s.handle? f with
  | none => ⟨s, .error (.errno Errno.badDescriptor), []⟩
  | some h =>
      let (result, h) := h.read s.failReadAfter size
      ⟨(s.count size).setHandle f (some h), result, []⟩

def close (s : State) (f : Nat) : Reply State IoError Unit :=
  match s.handle? f with
  | none => ⟨s, .error (.errno Errno.badDescriptor), []⟩
  | some _ =>
      { state := { s.setHandle f none with
          openHandles := s.openHandles - 1
          closeCount := s.closeCount + 1 }
        result := if s.failClose then .error (.errno Errno.inputOutput) else .ok () }

def finish (s : State) : Reply State Chain Unit :=
  ⟨{ s with finishCount := s.finishCount + 1 }, .ok (), []⟩

/-- How much an open file has left. -/
def pending (s : State) (f : Nat) : Nat := (s.handle? f).elim 0 Handle.left

theorem handle?_setHandle_self {s : State} {f : Nat} {h h' : Handle} (hf : s.handle? f = some h) :
    (s.setHandle f (some h')).handle? f = some h' := by
  have hlt : f < s.handles.length := by
    rcases Nat.lt_or_ge f s.handles.length with hl | hl
    · exact hl
    · simp [handle?, List.getElem?_eq_none hl] at hf
  simp [handle?, setHandle, hlt]

theorem length_of_read {s : State} {f size : Nat} {bytes : List UInt8}
    (h : (s.read f size).result = .ok bytes) : bytes.length ≤ size := by
  unfold read at h
  split at h
  · cases h
  · exact Handle.length_of_read h

theorem pending_read_lt {s : State} {f size : Nat} (h : Continues (s.read f size).result) :
    (s.read f size).state.pending f < s.pending f := by
  unfold read at h ⊢
  split at h
  · simp [Continues, IoError.isInterrupted, IoError.kind, Errno.kind, Errno.badDescriptor] at h
  · rename_i g hg
    have hs : (s.count size).handle? f = some g := hg
    simp only [pending, handle?_setHandle_self hs, hg, Option.elim]
    exact Handle.left_read_lt h

end State

/-- The provider of volumes in memory. -/
def provider : Provider State Unit Nat where
  connect url s := s.connect url
  setOption _ d s := s.setOption d
  setLogging _ sink level s := s.setLogging sink level
  openFile _ path s := s.openFile path
  lock f kind s := s.lock f kind
  read f size s := s.read f size
  close f s := s.close f
  finish _ s := s.finish
  pending f s := s.pending f
  length_read _ _ _ _ := State.length_of_read
  pending_read _ _ _ _ := State.pending_read_lt

end Memory

end LockedCat
