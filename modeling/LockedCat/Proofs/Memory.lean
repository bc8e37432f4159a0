import LockedCat.Memory
import LockedCat.Proofs.Agreement

/-!
# What a volume in memory offers

A volume in memory that is told to fail nothing. Main statement: a path that it has no file for
cannot be opened, a file that others have locked cannot be locked, and any other is given as it
was put there.
-/

namespace LockedCat

namespace Memory

/-- A volume in memory that fails nothing, with the files and the locks of the first. -/
structure Willing (m m' : State) : Prop where
  files : m'.files = m.files
  foreignLocks : m'.foreignLocks = m.foreignLocks
  rejectedKey : m'.rejectedKey = none
  failReadAfter : m'.failReadAfter = none
  failClose : m'.failClose = false
  unfinished : m'.isFinished = false

variable {m m' : State}

theorem Willing.obliging (m : State) : Obliging provider fun (_ : Unit) => Willing m where
  setOption v d m' h := by
    have hk : m'.rejectedKey ≠ some d.key := by
      rw [h.rejectedKey]
      nofun
    simp only [provider, State.setOption, h.unfinished, Bool.false_eq_true, if_false, if_neg hk]
    exact ⟨trivial, h.files, h.foreignLocks, h.rejectedKey, h.failReadAfter, h.failClose,
      h.unfinished⟩
  setLogging v m' h :=
    ⟨rfl, h.files, h.foreignLocks, h.rejectedKey, h.failReadAfter, h.failClose, h.unfinished⟩

/-- An open file that is locked and was read so far. -/
def lockedAt (path : String) (data : Contents) (position : Nat) : Handle :=
  { path := path, contents := data, position := position, locked := true }

/-- The file is open under its lock and was read so far. -/
def Reached (f : Nat) (data : Contents) (position : Nat) (m : State) : Prop :=
  position ≤ data.size ∧ m.failReadAfter = none ∧ m.failClose = false ∧
    ∃ path, m.handle? f = some (lockedAt path data position)

/-- A read under the lock ends where it was asked to, or at the end of the file. -/
theorem read_of_locked {f position : Nat} {path : String} {data : Contents} (size : Nat)
    (hlimit : m.failReadAfter = none) (hh : m.handle? f = some (lockedAt path data position)) :
    provider.read f size m =
      ⟨(m.count size).setHandle f (some (lockedAt path data (min (position + size) data.size))),
        .ok (data.stretch position (position + size)), []⟩ := by
  rw [← Contents.stretch_min_size]
  simp [provider, State.read, hh, hlimit, Handle.read, Handle.stop, lockedAt]

theorem steady (f : Nat) (data : Contents) : Steady provider f data id (Reached f data) where
  most_pos _ h := h
  result position size m := by
    rintro ⟨-, hlimit, -, path, hh⟩
    rw [read_of_locked size hlimit hh]
    rfl
  advance position size m := by
    rintro ⟨hle, hlimit, hclose, path, hh⟩
    have hcount : (m.count size).handle? f = some (lockedAt path data position) := hh
    have hend : min (position + size) data.size =
        position + (data.stretch position (position + size)).length := by
      rw [Contents.length_stretch]
      omega
    rw [read_of_locked size hlimit hh, hend]
    refine ⟨?_, hlimit, hclose, path, State.handle?_setHandle_self hcount⟩
    rw [id, ← hend]
    exact Nat.min_le_right _ _

theorem Reached.close {f position : Nat} {data : Contents} (h : Reached f data position m) :
    (provider.close f m).result = .ok () := by
  obtain ⟨-, -, hclose, path, hh⟩ := h
  simp [provider, State.close, hh, hclose]

namespace Willing

variable {path : String}

theorem offers_absent (h : Willing m m') (hn : m.contents? path = none) (most : Nat → Nat) :
    Offers provider () path m' most none := by
  have hn : m'.contents? path = none := by rwa [State.contents?, h.files]
  have hopen : (provider.openFile () path m').result = .error (.errno Errno.notFound) := by
    simp [provider, State.openFile, h.unfinished, hn]
  exact ⟨_, .absent hopen, rfl⟩

/-- A file that is there is opened, and nothing but the count of open files changes with that. -/
theorem openFile_regular (h : Willing m m') {data : Contents} (hd : m.contents? path = some data) :
    ∃ m₁, Willing m m₁ ∧ provider.openFile () path m' = ⟨m₁, .ok m'.handles.length, []⟩ ∧
      m₁.handle? m'.handles.length = some { path := path, contents := data } := by
  have hd : m'.contents? path = some data := by rwa [State.contents?, h.files]
  refine ⟨{ m' with
    openHandles := m'.openHandles + 1
    handles := m'.handles ++ [some { path := path, contents := data }] }, ?_, ?_, ?_⟩
  · exact ⟨h.files, h.foreignLocks, h.rejectedKey, h.failReadAfter, h.failClose, h.unfinished⟩
  · simp [provider, State.openFile, h.unfinished, hd]
  · simp [State.handle?]

/-- An attempt to lock an open file is counted, and it fails if others have locked the file. -/
theorem lock_regular (h : Willing m m') {f : Nat} {x : Handle} (hh : m'.handle? f = some x) :
    ∃ m₁, Willing m m₁ ∧ m₁.handle? f = some x ∧ provider.lock f .write m' =
      if x.path ∈ m.foreignLocks then ⟨m₁, .error (.errno Errno.wouldBlock), []⟩
      else ⟨m₁.setHandle f (some { x with locked := true }), .ok (), []⟩ := by
  refine ⟨{ m' with locksTaken := m'.locksTaken ++ [LockKind.write] }, ?_, hh, ?_⟩
  · exact ⟨h.files, h.foreignLocks, h.rejectedKey, h.failReadAfter, h.failClose, h.unfinished⟩
  · simp only [provider, State.lock, hh, h.foreignLocks]

theorem offers_locked (h : Willing m m') {data : Contents} (hd : m.contents? path = some data)
    (hl : path ∈ m.foreignLocks) (most : Nat → Nat) :
    Offers provider () path m' most (some none) := by
  obtain ⟨m₁, h₁, hopen, hh₁⟩ := h.openFile_regular hd
  obtain ⟨m₂, h₂, hh₂, hlock⟩ := h₁.lock_regular hh₁
  rw [if_pos hl] at hlock
  refine ⟨_, .locked (by rw [hopen]) (by rw [hopen, hlock]) ?_, rfl⟩
  rw [hopen, hlock]
  simp [provider, State.close, hh₂, h₂.failClose]

theorem offers_granted (h : Willing m m') {data : Contents} (hd : m.contents? path = some data)
    (hl : path ∉ m.foreignLocks) : Offers provider () path m' id (some (some data)) := by
  obtain ⟨m₁, h₁, hopen, hh₁⟩ := h.openFile_regular hd
  obtain ⟨m₂, h₂, hh₂, hlock⟩ := h₁.lock_regular hh₁
  rw [if_neg hl] at hlock
  refine ⟨_, .granted (by rw [hopen]) (by rw [hopen, hlock]) (steady m'.handles.length data) ?_
    (fun position s h => h.close), rfl⟩
  rw [hopen, hlock]
  exact ⟨Nat.zero_le _, h₂.failReadAfter, h₂.failClose, path, State.handle?_setHandle_self hh₂⟩

end Willing

end Memory

end LockedCat
