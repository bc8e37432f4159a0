import LockedCat.Provider

/-!
# Scripted volumes

A volume that answers as it is told to. Every file that is opened on it has the same reads to
give, in order; data longer than a read asks for is handed out over several reads.
-/

namespace LockedCat

/-- One item of what a file gives. -/
inductive Piece where
  | data (bytes : List UInt8)
  | failure (error : IoError)
deriving DecidableEq, Repr

/-- What the volume answers. -/
structure Script where
  connectFailure : Option Chain := none
  loggingFailure : Option Chain := none
  finishFailure : Option Chain := none
  /-- The failure for directives that set this key. -/
  rejection : Option (String × Chain) := none
  openFailure : Option IoError := none
  lockFailure : Option IoError := none
  closeFailure : Option IoError := none
  pieces : List Piece := []
deriving Repr

namespace Script

/-- A script, and what each file opened so far has left to give. -/
structure State where
  script : Script
  files : List (List Piece) := []
deriving Repr

/-- One read: what it gives and what is left. -/
def take (size : Nat) : List Piece → Except IoError (List UInt8) × List Piece
  | [] => (.ok [], [])
  | .failure e :: rest => (.error e, rest)
  | .data bytes :: rest =>
      match bytes.drop size with
      | [] => (.ok bytes, rest)
      | more => (.ok (bytes.take size), .data more :: rest)

/-- How often a file can still be read before it ends. -/
def weight : List Piece → Nat
  | [] => 0
  | .failure _ :: rest => weight rest + 1
  | .data bytes :: rest => weight rest + bytes.length + 1

theorem length_take {size : Nat} {pieces : List Piece} {bytes : List UInt8}
    (h : (take size pieces).1 = .ok bytes) : bytes.length ≤ size := by
  unfold take at h
  split at h
  · cases h; exact Nat.zero_le _
  · cases h
  · split at h <;> cases h
    · rename_i hd
      exact List.drop_eq_nil_iff.mp hd
    · rw [List.length_take]; omega

theorem weight_take {size : Nat} (pieces : List Piece) (hs : 0 < size)
    (h : Continues (take size pieces).1) : weight (take size pieces).2 < weight pieces := by
  match pieces with
  | [] => simp [take, Continues] at h
  | .failure _ :: rest => simp [take, weight]
  | .data bytes :: rest =>
      cases hd : bytes.drop size with
      | nil => simp only [take, hd, weight]; omega
      | cons b more =>
          have hl : (b :: more).length = bytes.length - size := by rw [← hd, List.length_drop]
          simp only [List.length_cons] at hl
          simp only [take, hd, weight, List.length_cons]
          omega

def reply {ε α : Type} (s : State) (value : α) : Option ε → Reply State ε α
  | none => ⟨s, .ok value, []⟩
  | some e => ⟨s, .error e, []⟩

/-- What a file has left to give. -/
def State.left (s : State) (f : Nat) : List Piece := (s.files[f]?).getD []

def State.read (s : State) (f size : Nat) : Reply State IoError (List UInt8) :=
  let (result, left) := take size (s.left f)
  { state := { s with files := s.files.set f left }, result := result }

theorem State.weight_read (s : State) (f size : Nat) (hs : 0 < size)
    (h : Continues (s.read f size).result) :
    weight ((s.read f size).state.left f) < weight (s.left f) := by
  have h : Continues (take size (s.left f)).1 := h
  have hlt : f < s.files.length := by
    rcases Nat.lt_or_ge f s.files.length with hf | hf
    · exact hf
    · have : s.left f = [] := by simp [State.left, List.getElem?_eq_none hf]
      rw [this] at h
      simp [take, Continues] at h
  have hl : (s.read f size).state.left f = (take size (s.left f)).2 := by
    simp [State.read, State.left, hlt]
  rw [hl]
  exact weight_take _ hs h

/-- The provider of scripted volumes. -/
def provider : Provider State Unit Nat where
  connect _ s := reply s () s.script.connectFailure
  setOption _ d s :=
    reply s () (s.script.rejection.bind fun r => if r.1 = d.key then some r.2 else none)
  setLogging _ _ _ s := reply s () s.script.loggingFailure
  openFile _ _ s :=
    match s.script.openFailure with
    | some e => ⟨s, .error e, []⟩
    | none => ⟨{ s with files := s.files ++ [s.script.pieces] }, .ok s.files.length, []⟩
  lock _ _ s := reply s () s.script.lockFailure
  read f size s := s.read f size
  close _ s := reply s () s.script.closeFailure
  finish _ s := reply s () s.script.finishFailure
  pending f s := weight (s.left f)
  length_read _ _ _ _ h := length_take h
  pending_read f size s := s.weight_read f size

end Script

end LockedCat
