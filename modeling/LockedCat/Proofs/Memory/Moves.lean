import LockedCat.Proofs.Memory.Steps

/-!
# Moves on a volume in memory

What clients do to a volume and to its open files is one call after another, in any order, and what
the volume holds may be changed in between. What a move does to an open file is said here once.
-/

namespace LockedCat.Memory

/-- One thing that is done: a call of a client, or a change of what the volume holds. A file that is
dropped is left behind without a close. -/
inductive Move where
  | connect (url : Locator)
  | setOption (directive : Directive)
  | setLogging (sink : String) (level : Level)
  | openFile (path : String)
  | lock (file : Nat) (kind : LockKind)
  | read (file size : Nat)
  | close (file : Nat)
  | drop (file : Nat)
  | finish
  | put (path : String) (contents : Contents)
  | reserve (path : String)

namespace Move

/-- The open file that a move is made with. -/
def file? : Move → Option Nat
  | lock f _ | read f _ | close f | drop f => some f
  | _ => none

/-- The move is made with this open file, or with none. -/
def concerns (f : Nat) (m : Move) : Bool := m.file?.all (· = f)

end Move

/-- The bytes that an answer to a read gives. -/
def given (answer : Except IoError (List UInt8)) : List UInt8 := answer.toOption.getD []

theorem given_error (e : IoError) : given (.error e) = [] := rfl

namespace State

/-- Puts a file into the volume, in place of one with this path. -/
def put (s : State) (path : String) (contents : Contents) : State :=
  { s with files := (path, contents) :: s.files }

/-- From now on others hold a lock on the file with this path. -/
def reserve (s : State) (path : String) : State :=
  { s with foreignLocks := path :: s.foreignLocks }

def step (s : State) : Move → State
  | .connect url => (s.connect url).state
  | .setOption d => (s.setOption d).state
  | .setLogging sink level => (s.setLogging sink level).state
  | .openFile path => (s.openFile path).state
  | .lock f kind => (s.lock f kind).state
  | .read f size => (s.read f size).state
  | .close f => (s.close f).state
  | .drop f => s.drop f
  | .finish => s.finish.state
  | .put path contents => s.put path contents
  | .reserve path => s.reserve path

def run (s : State) (ms : List Move) : State := ms.foldl step s

/-- What an open file answers to a move, if that is a read of it. -/
def answer? (s : State) (f : Nat) : Move → Option (Except IoError (List UInt8))
  | .read g size => if g = f then some (s.read f size).result else none
  | _ => none

/-- What an open file answers to its reads in a run, in order. -/
def answers (f : Nat) : State → List Move → List (Except IoError (List UInt8))
  | _, [] => []
  | s, m :: ms => (s.answer? f m).toList ++ answers f (s.step m) ms

/-- All that an open file gives in a run. -/
def gathered (f : Nat) (s : State) (ms : List Move) : List UInt8 := (answers f s ms).flatMap given

theorem gathered_cons (f : Nat) (s : State) (m : Move) (ms : List Move) :
    gathered f s (m :: ms) = (s.answer? f m).toList.flatMap given ++ gathered f (s.step m) ms :=
  List.flatMap_append

/-- The move takes a lock on an open file. -/
def grants (s : State) (f : Nat) : Move → Bool
  | .lock g kind => g = f && (s.lock f kind).result.isOk
  | _ => false

/-- A lock on an open file was granted in a run. -/
def granted (f : Nat) : State → List Move → Bool
  | _, [] => false
  | s, m :: ms => s.grants f m || granted f (s.step m) ms

/-! ## What a call does to an open file -/

variable {s s' : State} {f g : Nat} {m : Move}

theorem handle?_drop (s : State) (f : Nat) : (s.drop f).handle? f = none := by
  simp only [drop, setHandle, handle?, List.getElem?_set]
  split
  · split <;> rfl
  · contradiction

theorem handle?_lock (s : State) (f : Nat) (kind : LockKind) :
    (s.lock f kind).state.handle? f = (s.handle? f).map fun x =>
      if x.path ∈ s.foreignLocks then x else { x with locked := true } := by
  unfold lock
  cases hf : s.handle? f with
  | none => exact hf
  | some x =>
      have hself :
          ({ s with locksTaken := s.locksTaken ++ [kind] } : State).handle? f = some x := hf
      simp only [Option.map_some]
      split
      · exact hf
      · exact handle?_setHandle_self hself

theorem isOk_lock (s : State) (f : Nat) (kind : LockKind) :
    (s.lock f kind).result.isOk = (s.handle? f).any (·.path ∉ s.foreignLocks) := by
  unfold lock
  cases s.handle? f with
  | none => rfl
  | some x =>
      by_cases hx : x.path ∈ s.foreignLocks
      · simp [hx, Except.isOk, Except.toBool]
      · simp [hx, Except.isOk, Except.toBool]

theorem handle?_read (s : State) (f size : Nat) :
    (s.read f size).state.handle? f =
      (s.handle? f).map fun x => (x.read s.failReadAfter size).2 := by
  unfold read
  cases hf : s.handle? f with
  | none => exact hf
  | some x =>
      have hself : (s.count size).handle? f = some x := hf
      exact handle?_setHandle_self hself

theorem result_read (s : State) (f size : Nat) :
    (s.read f size).result = (s.handle? f).elim (.error (.errno Errno.badDescriptor)) fun x =>
      (x.read s.failReadAfter size).1 := by
  unfold read
  cases s.handle? f <;> rfl

theorem handle?_close (s : State) (f : Nat) : (s.close f).state.handle? f = none := by
  unfold close
  cases hf : s.handle? f with
  | none => exact hf
  | some x => exact s.handle?_drop f

/-- What a call that is made with an open file may change: that file, and what is counted. -/
structure Touches (g : Nat) (s s' : State) : Prop where
  kept : Kept s s'
  handles : ∃ x, s'.handles = s.handles.set g x

theorem touches_of_open (hnone : s.handle? g = none → s' = s)
    (hsome : ∀ x, s.handle? g = some x → Touches g s s') : Touches g s s' := by
  cases hg : s.handle? g with
  | some x => exact hsome x hg
  | none =>
      rw [hnone hg]
      exact ⟨.refl s, s.handle? g, (congrArg handles (s.setHandle_handle? g)).symm⟩

theorem touches_step (hm : m.file? = some g) : Touches g s (s.step m) := by
  cases m with
  | lock f kind =>
      cases hm
      refine touches_of_open (fun hn => by simp [step, lock, hn]) fun x hx => ?_
      obtain ⟨x', hs⟩ := lock_eq hx kind
      rw [step, hs]
      exact ⟨.counts .., _, rfl⟩
  | read f size =>
      cases hm
      refine touches_of_open (fun hn => by simp [step, read, hn]) fun x hx => ?_
      obtain ⟨x', hs⟩ := read_eq hx size
      rw [step, hs]
      exact ⟨.counts .., _, rfl⟩
  | close f =>
      cases hm
      refine touches_of_open (fun hn => by simp [step, close, hn]) fun x hx => ?_
      rw [step, close_eq hx]
      exact ⟨.counts .., _, rfl⟩
  | drop f =>
      cases hm
      exact ⟨.counts .., _, rfl⟩
  | _ => cases hm

theorem Touches.length (h : Touches g s s') : s'.handles.length = s.handles.length := by
  obtain ⟨x, hx⟩ := h.handles
  rw [hx, List.length_set]

theorem Touches.handle? (h : Touches g s s') (hne : g ≠ f) : s'.handle? f = s.handle? f := by
  obtain ⟨x, hx⟩ := h.handles
  simp [State.handle?, hx, hne]

/-! ## Calls beside an open file -/

theorem setOption_eq (s : State) (d : Directive) :
    (s.setOption d).state = s ∨ (s.setOption d).state = { s with applied := s.applied ++ [d] } := by
  unfold setOption
  split
  · exact .inl rfl
  · split
    · exact .inl rfl
    · exact .inr rfl

/-- Files may be opened by what is done with none of them, and reads fail where they did. -/
theorem step_of_no_file (hm : m.file? = none) :
    (s.step m).failReadAfter = s.failReadAfter ∧
      ∃ more, (s.step m).handles = s.handles ++ more := by
  have hself : s.handles = s.handles ++ [] := (List.append_nil _).symm
  cases m with
  | openFile path =>
      rw [step]
      rcases s.openFile_eq path with ⟨e, he⟩ | ⟨contents, ho⟩
      · rw [he]
        exact ⟨rfl, [], hself⟩
      · rw [ho]
        exact ⟨rfl, _, rfl⟩
  | setOption d =>
      rw [step]
      rcases s.setOption_eq d with he | he <;> rw [he] <;> exact ⟨rfl, [], hself⟩
  | connect | setLogging | finish | put | reserve => exact ⟨rfl, [], hself⟩
  | _ => cases hm

/-- What is done with other files and with the volume leaves an open file alone. -/
structure Spares (f : Nat) (s s' : State) : Prop where
  failReadAfter : s'.failReadAfter = s.failReadAfter
  length : s.handles.length ≤ s'.handles.length
  handle : s'.handle? f = s.handle? f

theorem spares_step (hm : m.file? ≠ some f) (hf : f < s.handles.length) :
    Spares f s (s.step m) := by
  cases hfile : m.file? with
  | some g =>
      have h := touches_step (s := s) hfile
      have hne : g ≠ f := fun he => hm (hfile.trans (congrArg some he))
      exact ⟨h.kept.failReadAfter, Nat.le_of_eq h.length.symm, h.handle? hne⟩
  | none =>
      obtain ⟨hlimit, more, hmore⟩ := step_of_no_file (s := s) hfile
      refine ⟨hlimit, ?_, ?_⟩
      · rw [hmore, List.length_append]
        omega
      · rw [handle?, handle?, hmore, List.getElem?_append_left hf]

/-- A file stays open until it is closed or dropped. -/
theorem isSome_step (hf : (s.handle? f).isSome) (hc : m ≠ .close f) (hd : m ≠ .drop f) :
    ((s.step m).handle? f).isSome := by
  by_cases hm : m.file? = some f
  · cases m with
    | lock g kind =>
        cases hm
        rw [step, handle?_lock, Option.isSome_map]
        exact hf
    | read g size =>
        cases hm
        rw [step, handle?_read, Option.isSome_map]
        exact hf
    | close g =>
        cases hm
        exact absurd rfl hc
    | drop g =>
        cases hm
        exact absurd rfl hd
    | _ => cases hm
  · obtain ⟨x, hx⟩ := Option.isSome_iff_exists.mp hf
    rw [(spares_step hm (lt_of_handle? hx)).handle]
    exact hf

theorem isSome_run {ms : List Move} (hf : (s.handle? f).isSome) (hc : .close f ∉ ms)
    (hd : .drop f ∉ ms) : ((s.run ms).handle? f).isSome := by
  induction ms generalizing s with
  | nil => exact hf
  | cons m rest ih =>
      rw [List.mem_cons, not_or] at hc hd
      exact ih (isSome_step hf (Ne.symm hc.1) (Ne.symm hd.1)) hc.2 hd.2

theorem answer?_of_ne (hm : m.file? ≠ some f) : s.answer? f m = none := by
  cases m with
  | read g size => exact if_neg fun he => hm (congrArg some he)
  | _ => rfl

theorem grants_of_ne (hm : m.file? ≠ some f) : s.grants f m = false := by
  cases m with
  | lock g kind =>
      have hne : g ≠ f := fun he => hm (congrArg some he)
      simp [grants, hne]
  | _ => rfl

end State

end LockedCat.Memory
