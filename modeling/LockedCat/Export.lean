import LockedCat.Config
import LockedCat.Export.State
import LockedCat.Text.Quoted

/-!
# Exported volumes

Volumes that are served from a directory of the machine itself: the volume `V` is the directory
with this name in the root of the export. Only hosts that are the machine are served, by an address
at which a machine reaches itself or by one of its interfaces.

A volume says what is done to it: in its log once it has one, as events until then.
-/

namespace LockedCat.Export

/-- The most bytes that one read gives. -/
def readLimit : Nat := 2 * 1024 * 1024

/-- Whether a host is the machine itself. -/
def reach (network : Network) (url : Locator) : Except Chain Unit :=
  match network.resolve url.lookupHost, network.interfaces with
  | .error c, _ => .error (c.within ("failed to resolve host " ++ url.host))
  | .ok _, .error e => .error (e.chain.within "failed to list local interfaces")
  | .ok addresses, .ok own =>
      if addresses.any fun a => a.isLoopback || own.contains a then .ok ()
      else .error { root := "host " ++ url.host
        ++ " is unreachable: no volumes are exported to it from this machine" }

namespace State

def connect (s : State) (url : Locator) : Reply State Chain Nat :=
  match reach s.network url with
  | .error c => ⟨s, .error c, []⟩
  | .ok () =>
      if url.volume = "." ∨ url.volume = ".." then
        ⟨s, .error { root := "invalid volume name '" ++ url.volume ++ "'" }, []⟩
      else
        let brick := Path.join s.root url.volume
        let absence := "volume '" ++ url.volume ++ "' does not exist"
        match s.find brick [url.volume] with
        | .error e => ⟨s, .error (e.chain.within absence), []⟩
        | .ok (.file _) => ⟨s, .error { root := absence }, []⟩
        | .ok .directory =>
            { state := { s with volumes := s.volumes ++ [{ brick := brick, name := url.volume }] }
              result := .ok s.volumes.length
              notes := [.event ⟨.debug,
                "serving volume " ++ url.volume ++ " from " ++ Text.quoted brick⟩] }

/-- A session that is not known. -/
def unknown {ε α : Type} (s : State) (e : ε) : Reply State ε α := ⟨s, .error e, []⟩

def setOption (s : State) (v : Nat) (d : Directive) : Reply State Chain Unit :=
  match s.volume? v with
  | none => s.unknown (IoError.errno Errno.badDescriptor).chain
  | some volume =>
      let (s, notes) := s.say v ("setting translator option " ++ d.display)
      let (s, notes) := match volume.option? d.key with
        | none => (s, notes)
        | some old =>
            let (s, more) := s.say v (d.key ++ " overrides earlier value '" ++ old ++ "'")
            (s, notes ++ more)
      ⟨s.setVolume v (volume.set d), .ok (), notes⟩

/-- Opens a log at its end and makes it if there is none. -/
def openLog (s : State) (sink : String) : Except IoError (Log × State) :=
  if sink = Config.debugLog then .ok (.stderr, s)
  else
    match s.destination sink with
    | .error e => .error e
    | .ok (.elsewhere id) => .ok (.elsewhere id, s)
    | .ok (.within r) =>
        (s.tree.create r).map fun (id, tree) => (.file id, { s with tree := tree })

def setLogging (s : State) (v : Nat) (sink : String) (level : Level) : Reply State Chain Unit :=
  match s.volume? v, s.openLog sink with
  | none, _ => s.unknown (IoError.errno Errno.badDescriptor).chain
  | some _, .error e =>
      ⟨s, .error (e.chain.within ("cannot open log file " ++ Text.quoted sink)), []⟩
  | some volume, .ok (log, s) =>
      ⟨s.setVolume v { volume with log := some (log, level) }, .ok (), []⟩

def openFile (s : State) (v : Nat) (path : String) : Reply State IoError Nat :=
  match s.volume? v with
  | none => s.unknown (.errno Errno.badDescriptor)
  | some volume =>
      match Volume.names path with
      | .error e => ⟨s, .error e, []⟩
      | .ok names =>
          let resolved := names.foldl Path.join volume.brick
          let (s, notes) := s.say v ("open " ++ path ++ " -> " ++ Text.quoted resolved)
          match s.find resolved (volume.name :: names) with
          | .error e => ⟨s, .error e, notes⟩
          | .ok .directory => ⟨s, .error (.errno Errno.isADirectory), notes⟩
          | .ok (.file id) =>
              let handle : Handle := { file := id, path := path, volume := v }
              ⟨{ s with handles := s.handles ++ [some handle] }, .ok s.handles.length, notes⟩

/-- What a lock is called in a diagnostic. -/
def lockTitle : LockKind → String
  | .read => "Read"
  | .write => "Write"

/-- Takes a lock in place of the one that is held through the same open file. -/
def lock (s : State) (f : Nat) (kind : LockKind) : Reply State IoError Unit :=
  match s.handle? f with
  | none => s.unknown (.errno Errno.badDescriptor)
  | some h =>
      if s.isFree f h kind then
        let (s, notes) := s.say h.volume (lockTitle kind ++ " lock acquired on " ++ h.path)
        ⟨s.setHandle f (some { h with lock := some kind }), .ok (), notes⟩
      else ⟨s, .error (.errno Errno.wouldBlock), []⟩

/-- What one read of an open file gives. -/
def stretch (s : State) (h : Handle) (size : Nat) : List UInt8 :=
  (s.tree.contents h.file).stretch h.position (h.position + min size readLimit)

def read (s : State) (f size : Nat) : Reply State IoError (List UInt8) :=
  match s.handle? f with
  | none => s.unknown (.errno Errno.badDescriptor)
  | some h =>
      let bytes := s.stretch h size
      ⟨s.setHandle f (some { h with position := h.position + bytes.length }), .ok bytes, []⟩

def close (s : State) (f : Nat) : Reply State IoError Unit :=
  match s.handle? f with
  | none => s.unknown (.errno Errno.badDescriptor)
  | some h =>
      let (s, notes) := (s.drop f).say h.volume ("closed " ++ h.path)
      ⟨s, .ok (), notes⟩

def finish (s : State) (v : Nat) : Reply State Chain Unit :=
  match s.volume? v with
  | none => s.unknown (IoError.errno Errno.badDescriptor).chain
  | some volume =>
      let (s, notes) := s.say v ("finalizing " ++ Text.quoted volume.brick ++ " with "
        ++ toString volume.options.length ++ " translator option(s)")
      ⟨s, .ok (), notes⟩

/-- Another program takes a lock on the file that a locator names, if there is one. -/
def hold (s : State) (url : Locator) (kind : LockKind) : State :=
  match s.connect url with
  | ⟨s, .error _, _⟩ => s
  | ⟨s, .ok v, _⟩ =>
      match s.openFile v url.path with
      | ⟨s, .error _, _⟩ => s
      | ⟨s, .ok f, _⟩ => (s.lock f kind).state

/-- How much of an open file is left. -/
def pending (s : State) (f : Nat) : Nat :=
  (s.handle? f).elim 0 fun h => (s.tree.contents h.file).size - h.position

theorem length_stretch_le (s : State) (h : Handle) (size : Nat) :
    (s.stretch h size).length ≤ size := by
  rw [stretch, Contents.length_stretch]
  omega

theorem length_of_read {s : State} {f size : Nat} {bytes : List UInt8}
    (h : (s.read f size).result = .ok bytes) : bytes.length ≤ size := by
  unfold read at h
  split at h
  · cases h
  · cases h
    exact s.length_stretch_le _ _

theorem pending_read_lt {s : State} {f size : Nat} (h : Continues (s.read f size).result) :
    (s.read f size).state.pending f < s.pending f := by
  unfold read at h ⊢
  split at h
  · simp [unknown, Continues, IoError.isInterrupted, IoError.kind, Errno.kind,
      Errno.badDescriptor] at h
  · rename_i g hg
    have hlt := Contents.lt_of_stretch_ne_nil h
    have hlen := List.length_pos_iff.mpr h
    simp only [pending, handle?_setHandle_self hg, hg, Option.elim]
    have ht : ∀ x, (s.setHandle f x).tree = s.tree := fun _ => rfl
    rw [ht]
    omega

end State

/-- The provider of exported volumes. -/
def provider : Provider State Nat Nat where
  connect url s := s.connect url
  setOption v d s := s.setOption v d
  setLogging v sink level s := s.setLogging v sink level
  openFile v path s := s.openFile v path
  lock f kind s := s.lock f kind
  read f size s := s.read f size
  close f s := s.close f
  finish v s := s.finish v
  pending f s := s.pending f
  length_read _ _ _ _ := State.length_of_read
  pending_read _ _ _ _ := State.pending_read_lt

end LockedCat.Export
