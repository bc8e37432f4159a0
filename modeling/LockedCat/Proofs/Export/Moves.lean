import LockedCat.Export
import LockedCat.Proofs.Export.Trees
import LockedCat.Proofs.Trace

/-!
# Moves on an export

Everything that is done to an export, by its clients or past it, is one move after another, in any
order. What a move does to an open file and what it does to the tree is said here once; what holds
of all runs is derived from that.
-/

namespace LockedCat.Export

/-- One thing that is done: a call of a client, or a change of the files that the export knows
nothing of. A file that is dropped is left behind without a close. -/
inductive Move where
  | connect (url : Locator)
  | setOption (volume : Nat) (directive : Directive)
  | setLogging (volume : Nat) (sink : String) (level : Level)
  | openFile (volume : Nat) (path : String)
  | lock (file : Nat) (kind : LockKind)
  | read (file size : Nat)
  | close (file : Nat)
  | drop (file : Nat)
  | finish (volume : Nat)
  | put (path : String) (contents : Contents)
  | remove (path : String)

namespace Move

/-- The open file that a move is made with. -/
def file? : Move → Option Nat
  | lock f _ | read f _ | close f | drop f => some f
  | _ => none

/-- Whether a client makes the move, and no file is made or written to for a log because of it. -/
def modest : Move → Bool
  | setLogging _ sink _ => sink = Config.debugLog
  | put .. | remove _ => false
  | _ => true

end Move

namespace State

/-- The state after a move. A move that fails changes no file. -/
def step (s : State) : Move → State
  | .connect url => (s.connect url).state
  | .setOption v d => (s.setOption v d).state
  | .setLogging v sink level => (s.setLogging v sink level).state
  | .openFile v path => (s.openFile v path).state
  | .lock f kind => (s.lock f kind).state
  | .read f size => (s.read f size).state
  | .close f => (s.close f).state
  | .drop f => s.drop f
  | .finish v => (s.finish v).state
  | .put path contents => (s.put path contents).toOption.getD s
  | .remove path => (s.remove path).toOption.getD s

def run (s : State) (ms : List Move) : State := ms.foldl step s

@[simp] theorem run_nil (s : State) : s.run [] = s := rfl

@[simp] theorem run_cons (s : State) (m : Move) (ms : List Move) :
    s.run (m :: ms) = (s.step m).run ms := rfl

theorem run_append (s : State) (ms ns : List Move) : s.run (ms ++ ns) = (s.run ms).run ns :=
  List.foldl_append

/-! ## Diagnostics -/

/-- The diagnostics of some volume go to the file with this identity. -/
def Logs (s : State) (id : Nat) : Prop :=
  ∃ volume ∈ s.volumes, ∃ most, volume.log = some (.file id, most)

@[simp] theorem volumes_say (s : State) (v : Nat) (message : String) :
    (s.say v message).1.volumes = s.volumes := by
  unfold say
  repeat' split
  all_goals rfl

@[simp] theorem nodes_say (s : State) (v : Nat) (message : String) :
    (s.say v message).1.tree.nodes = s.tree.nodes := by
  unfold say
  repeat' split
  all_goals rfl

/-- What happened concerns no open file, and it spares the files that are to be kept. -/
structure Changes (keep : Nat → Prop) (s s' : State) : Prop where
  handles : s'.handles = s.handles
  tree : s.tree.Spares keep s'.tree

theorem Changes.refl (keep : Nat → Prop) (s : State) : Changes keep s s := ⟨rfl, .refl _⟩

theorem changes_say (s : State) (v : Nat) (message : String) :
    Changes (¬s.Logs ·) s (s.say v message).1 := by
  unfold say
  split
  · exact .refl _ s
  · rename_i log most hlog
    split
    · split
      · rename_i id
        refine ⟨rfl, .setContents _ _ fun _ hk => hk ?_⟩
        obtain ⟨volume, hv, hl⟩ := Option.bind_eq_some_iff.mp hlog
        exact ⟨volume, List.mem_of_getElem? hv, most, hl⟩
      · exact .refl _ s
      · exact .refl _ s
    · exact .refl _ s

@[simp] theorem handles_say (s : State) (v : Nat) (message : String) :
    (s.say v message).1.handles = s.handles := (changes_say s v message).handles

/-! ## Sessions -/

theorem volume?_added {s s' : State} {x : Volume} (h : s'.volumes = s.volumes ++ [x]) (v : Nat) :
    s'.volume? v = if v = s.volumes.length then some x else s.volume? v := by
  unfold volume?
  rw [h]
  by_cases hv : v = s.volumes.length
  · simp [hv]
  · rcases Nat.lt_or_ge v s.volumes.length with hlt | hge
    · rw [if_neg hv, List.getElem?_append_left hlt]
    · have hnone : (s.volumes ++ [x])[v]? = none := by
        rw [List.getElem?_eq_none_iff, List.length_append, List.length_singleton]
        omega
      rw [if_neg hv, hnone, List.getElem?_eq_none hge]

theorem volume?_changed {s s' : State} {u : Nat} {old new : Volume} (hu : s.volume? u = some old)
    (h : s'.volumes = s.volumes.set u new) (v : Nat) :
    s'.volume? v = if u = v then some new else s.volume? v := by
  obtain ⟨hlt, -⟩ := List.getElem?_eq_some_iff.mp hu
  unfold volume?
  rw [h, List.getElem?_set]
  by_cases he : u = v
  · subst he
    simp [hlt]
  · simp [he]

/-- A session begins with a directory of the root, or nothing happens. -/
theorem connect_eq (s : State) (url : Locator) :
    (∃ c, s.connect url = ⟨s, .error c, []⟩) ∨
      (url.volume ≠ "." ∧ url.volume ≠ "..") ∧
        s.find (Path.join s.root url.volume) [url.volume] = .ok .directory ∧
        s.connect url = {
          state := { s with volumes := s.volumes ++
            [{ brick := Path.join s.root url.volume, name := url.volume }] }
          result := .ok s.volumes.length
          notes := [.event ⟨.debug, "serving volume " ++ url.volume ++ " from "
            ++ Text.quoted (Path.join s.root url.volume)⟩] } := by
  unfold connect
  cases reach s.network url with
  | error c => exact .inl ⟨c, rfl⟩
  | ok reached =>
      by_cases hdots : url.volume = "." ∨ url.volume = ".."
      · exact .inl ⟨_, if_pos hdots⟩
      · simp only [if_neg hdots]
        cases hfind : s.find (Path.join s.root url.volume) [url.volume] with
        | error e => exact .inl ⟨_, rfl⟩
        | ok node =>
            cases node with
            | file id => exact .inl ⟨_, rfl⟩
            | directory => exact .inr ⟨not_or.mp hdots, rfl, rfl⟩

theorem connect_state_of_error {s : State} {url : Locator} {c : Chain}
    (h : (s.connect url).result = .error c) : (s.connect url).state = s := by
  rcases s.connect_eq url with ⟨c', he⟩ | ⟨-, -, ho⟩
  · rw [he]
  · rw [ho] at h
    cases h

theorem changes_connect (s : State) (url : Locator) :
    Changes (¬s.Logs ·) s (s.connect url).state := by
  rcases s.connect_eq url with ⟨c, he⟩ | ⟨-, -, ho⟩
  · rw [he]
    exact .refl _ s
  · rw [ho]
    exact ⟨rfl, .refl _⟩

theorem changes_setOption (s : State) (v : Nat) (d : Directive) :
    Changes (¬s.Logs ·) s (s.setOption v d).state := by
  unfold setOption
  cases hv : s.volume? v with
  | none => exact .refl _ s
  | some volume =>
      have h₁ := changes_say s v ("setting translator option " ++ d.display)
      cases ho : volume.option? d.key with
      | none =>
          simp only [ho]
          exact ⟨h₁.handles, h₁.tree⟩
      | some old =>
          have h₂ := changes_say (s.say v ("setting translator option " ++ d.display)).1 v
            (d.key ++ " overrides earlier value '" ++ old ++ "'")
          have hsame (id : Nat) (hid : ¬s.Logs id) :
              ¬(s.say v ("setting translator option " ++ d.display)).1.Logs id := by
            simpa only [Logs, volumes_say] using hid
          simp only [ho]
          exact ⟨h₂.handles.trans h₁.handles, h₁.tree.trans (h₂.tree.mono hsame)⟩

/-- A session takes every directive. -/
theorem setOption_ok {s : State} {v : Nat} {x : Volume} (hv : s.volume? v = some x)
    (d : Directive) :
    (s.setOption v d).result = .ok () ∧
      (s.setOption v d).state.volumes = s.volumes.set v (x.set d) := by
  cases ho : x.option? d.key <;> simp [setOption, hv, ho, setVolume]

/-- A log is no file of the tree, or a file that is there or made for it. -/
theorem openLog_eq_ok {s s' : State} {sink : String} {log : Log}
    (h : s.openLog sink = .ok (log, s')) :
    (∀ id, log ≠ .file id) ∧ s' = s ∨ ∃ r id tree, s.destination sink = .ok (.within r) ∧
      s.tree.create r = .ok (id, tree) ∧ log = .file id ∧ s' = { s with tree := tree } := by
  unfold openLog at h
  split at h
  · cases h
    exact .inl ⟨nofun, rfl⟩
  · split at h
    · cases h
    · cases h
      exact .inl ⟨nofun, rfl⟩
    · rename_i r hr
      cases hc : s.tree.create r with
      | error e => simp [hc, Except.map] at h
      | ok made =>
          obtain ⟨id, tree⟩ := made
          simp only [hc, Except.map, Except.ok.injEq, Prod.mk.injEq] at h
          exact .inr ⟨r, id, tree, hr, hc, h.1.symm, h.2.symm⟩

theorem openLog_volumes {s s₁ : State} {sink : String} {log : Log}
    (h : s.openLog sink = .ok (log, s₁)) : s₁.volumes = s.volumes := by
  rcases openLog_eq_ok h with ⟨-, rfl⟩ | ⟨r, id, tree, -, -, -, rfl⟩ <;> rfl

/-- A log that can be opened takes the place of the one before it, or nothing happens. -/
theorem setLogging_eq (s : State) (v : Nat) (sink : String) (level : Level) :
    (∃ c, s.setLogging v sink level = ⟨s, .error c, []⟩) ∨
      ∃ x log s₁, s.volume? v = some x ∧ s.openLog sink = .ok (log, s₁) ∧
        s.setLogging v sink level =
          ⟨s₁.setVolume v { x with log := some (log, level) }, .ok (), []⟩ := by
  unfold setLogging
  cases s.volume? v with
  | none => exact .inl ⟨_, rfl⟩
  | some x =>
      cases ho : s.openLog sink with
      | error e => exact .inl ⟨_, rfl⟩
      | ok opened =>
          obtain ⟨log, s₁⟩ := opened
          exact .inr ⟨x, log, s₁, rfl, rfl, rfl⟩

theorem setLogging_state_of_error {s : State} {v : Nat} {sink : String} {level : Level} {c : Chain}
    (h : (s.setLogging v sink level).result = .error c) :
    s.setLogging v sink level = ⟨s, .error c, []⟩ := by
  rcases s.setLogging_eq v sink level with ⟨c', he⟩ | ⟨x, log, s₁, -, -, hs⟩
  · rw [he] at h ⊢
    cases h
    rfl
  · rw [hs] at h
    cases h

theorem changes_setLogging (s : State) (v : Nat) (sink : String) (level : Level) :
    Changes (¬s.Logs ·) s (s.setLogging v sink level).state := by
  rcases s.setLogging_eq v sink level with ⟨c, he⟩ | ⟨x, log, s₁, -, ho, hs⟩
  · rw [he]
    exact .refl _ s
  · rw [hs]
    rcases openLog_eq_ok ho with ⟨-, rfl⟩ | ⟨r, id, tree, -, hc, -, rfl⟩
    · exact ⟨rfl, .refl _⟩
    · exact ⟨rfl, .create hc⟩

theorem changes_finish (s : State) (v : Nat) :
    Changes (¬s.Logs ·) s (s.finish v).state := by
  unfold finish
  split
  · exact .refl _ s
  · exact changes_say ..

/-! ## What others do -/

/-- The file with this path, if there is one. -/
def file? (s : State) (path : String) : Option Nat :=
  match s.route path with
  | .error _ => none
  | .ok r =>
      match s.tree.lookup r with
      | .ok (.file id) => some id
      | _ => none

theorem changes_put (s : State) (path : String) (contents : Contents) :
    Changes (s.file? path ≠ some ·) s ((s.put path contents).toOption.getD s) := by
  unfold put
  cases hr : s.route path with
  | error e => exact .refl _ s
  | ok r =>
      simp only
      cases hp : s.tree.put r contents with
      | error e => exact .refl _ s
      | ok tree =>
          refine ⟨rfl, .put hp fun id hl => ?_⟩
          simp [file?, hr, hl]

theorem changes_remove (s : State) (path : String) :
    Changes (fun _ => True) s ((s.remove path).toOption.getD s) := by
  unfold remove
  split
  · exact .refl _ s
  · rename_i r _
    cases hr : s.tree.remove r with
    | error e => exact .refl _ s
    | ok tree => exact ⟨rfl, .remove hr⟩

/-! ## Open files -/

theorem handle?_setHandle (s : State) (f g : Nat) (x : Option Handle) :
    (s.setHandle f x).handle? g =
      if g = f ∧ f < s.handles.length then x else s.handle? g := by
  unfold setHandle handle?
  rw [List.getElem?_set]
  by_cases hf : f = g
  · subst hf
    by_cases hl : f < s.handles.length <;> simp [hl]
  · simp [hf, Ne.symm hf]

theorem lt_of_handle? {s : State} {f : Nat} {h : Handle} (hf : s.handle? f = some h) :
    f < s.handles.length := by
  rcases Nat.lt_or_ge f s.handles.length with hl | hl
  · exact hl
  · simp [handle?, List.getElem?_eq_none hl] at hf

theorem handle?_append (s : State) (f : Nat) (x : Option Handle) :
    { s with handles := s.handles ++ [x] }.handle? f =
      if f = s.handles.length then x else s.handle? f := by
  unfold handle?
  by_cases hf : f = s.handles.length
  · simp [hf]
  · rcases Nat.lt_or_ge f s.handles.length with hl | hl
    · simp [hf, List.getElem?_append_left hl]
    · have hnone : (s.handles ++ [x])[f]? = none := by
        rw [List.getElem?_eq_none_iff, List.length_append, List.length_singleton]
        omega
      simp [hf, hnone, List.getElem?_eq_none hl]

theorem handle?_congr {s s' : State} (h : s'.handles = s.handles) (f : Nat) :
    s'.handle? f = s.handle? f := by
  simp [handle?, h]

/-- What a move leaves of an open file. -/
inductive Touches (s : State) (f : Nat) : Move → Option Handle → Prop where
  | other {m} : m.file? ≠ some f → Touches s f m (s.handle? f)
  | absent {m} : m.file? = some f → s.handle? f = none → Touches s f m none
  | opened {v path names id} : f = s.handles.length → (names, .file id) ∈ s.tree.nodes →
      Touches s f (.openFile v path) (some { file := id, path := path, volume := v })
  | locked {kind h} : s.handle? f = some h → s.isFree f h kind →
      Touches s f (.lock f kind) (some { h with lock := some kind })
  | refused {kind h} : s.handle? f = some h → (s.lock f kind).result ≠ .ok () →
      Touches s f (.lock f kind) (some h)
  | read {size h} : s.handle? f = some h →
      Touches s f (.read f size)
        (some { h with position := h.position + (s.stretch h size).length })
  | closed : Touches s f (.close f) none
  | dropped : Touches s f (.drop f) none

theorem Changes.touches {keep : Nat → Prop} {s s' : State} {m : Move} (hm : m.file? = none)
    (h : Changes keep s s') (f : Nat) : Touches s f m (s'.handle? f) := by
  rw [handle?_congr h.handles]
  exact .other (by simp [hm])

theorem touches_openFile (s : State) (f v : Nat) (path : String) :
    Touches s f (.openFile v path) ((s.openFile v path).state.handle? f) := by
  have hother (s' : State) (h : s'.handles = s.handles) :
      Touches s f (.openFile v path) (s'.handle? f) := by
    rw [handle?_congr h]
    exact .other (by simp [Move.file?])
  unfold openFile
  split
  · exact hother _ rfl
  · split
    · exact hother _ rfl
    · simp only
      split
      · exact hother _ (handles_say ..)
      · exact hother _ (handles_say ..)
      · rename_i hfind
        rw [handle?_append, handles_say]
        by_cases hf : f = s.handles.length
        · unfold find at hfind
          split at hfind
          · cases hfind
          · obtain ⟨names, hm⟩ := Tree.mem_nodes_of_lookup hfind
            rw [nodes_say] at hm
            rw [if_pos hf]
            exact .opened hf hm
        · rw [if_neg hf]
          exact hother _ (handles_say ..)

theorem touches_lock (s : State) (f g : Nat) (kind : LockKind) :
    Touches s f (.lock g kind) ((s.lock g kind).state.handle? f) := by
  by_cases hg : g = f
  · subst hg
    cases hh : s.handle? g with
    | none =>
        have hl : (s.lock g kind).state = s := by simp [lock, hh, unknown]
        rw [hl, hh]
        exact .absent rfl hh
    | some h =>
        by_cases hfree : s.isFree g h kind
        · have hl : (s.lock g kind).state.handle? g = some { h with lock := some kind } := by
            simp [lock, hh, hfree, handle?_setHandle, lt_of_handle? hh]
          rw [hl]
          exact .locked hh hfree
        · have hl : s.lock g kind = ⟨s, .error (.errno Errno.wouldBlock), []⟩ := by
            simp [lock, hh, hfree]
          rw [hl, hh]
          exact .refused hh (by simp [hl])
  · have hl : (s.lock g kind).state.handle? f = s.handle? f := by
      unfold lock
      split
      · rfl
      · split
        · simp only [handle?_setHandle]
          rw [if_neg (fun hc => hg hc.1.symm)]
          exact handle?_congr (handles_say ..) f
        · rfl
    rw [hl]
    exact .other (by simp [Move.file?, hg])

theorem touches_read (s : State) (f g size : Nat) :
    Touches s f (.read g size) ((s.read g size).state.handle? f) := by
  by_cases hg : g = f
  · subst hg
    cases hh : s.handle? g with
    | none =>
        have hr : (s.read g size).state = s := by simp [read, hh, unknown]
        rw [hr, hh]
        exact .absent rfl hh
    | some h =>
        have hr : (s.read g size).state.handle? g =
            some { h with position := h.position + (s.stretch h size).length } := by
          simp [read, hh, handle?_setHandle, lt_of_handle? hh]
        rw [hr]
        exact .read hh
  · have hr : (s.read g size).state.handle? f = s.handle? f := by
      unfold read
      split
      · rfl
      · simp only [handle?_setHandle]
        rw [if_neg (fun hc => hg hc.1.symm)]
    rw [hr]
    exact .other (by simp [Move.file?, hg])

theorem handle?_drop (s : State) (f g : Nat) :
    (s.drop g).handle? f = if f = g then none else s.handle? f := by
  unfold drop
  rw [handle?_setHandle]
  by_cases hf : f = g
  · subst hf
    rcases Nat.lt_or_ge f s.handles.length with hl | hl
    · simp [hl]
    · simp [handle?, List.getElem?_eq_none hl]
  · simp [hf]

theorem handle?_close (s : State) (f g : Nat) :
    (s.close g).state.handle? f = if f = g then none else s.handle? f := by
  unfold close
  cases hh : s.handle? g with
  | none =>
      by_cases hf : f = g
      · subst hf
        simp [unknown, hh]
      · simp [unknown, hf]
  | some h =>
      simp only
      rw [handle?_congr (handles_say ..), handle?_drop]

theorem touches_step (s : State) (m : Move) (f : Nat) : Touches s f m ((s.step m).handle? f) := by
  cases m with
  | connect url => exact (changes_connect s url).touches rfl f
  | setOption v d => exact (changes_setOption s v d).touches rfl f
  | setLogging v sink level => exact (changes_setLogging s v sink level).touches rfl f
  | openFile v path => exact touches_openFile s f v path
  | lock g kind => exact touches_lock s f g kind
  | read g size => exact touches_read s f g size
  | close g =>
      simp only [step, handle?_close]
      by_cases hf : f = g
      · subst hf
        simpa using Touches.closed
      · simpa [hf] using Touches.other (by simp [Move.file?, Ne.symm hf])
  | drop g =>
      simp only [step, handle?_drop]
      by_cases hf : f = g
      · subst hf
        simpa using Touches.dropped
      · simpa [hf] using Touches.other (by simp [Move.file?, Ne.symm hf])
  | finish v => exact (changes_finish s v).touches rfl f
  | put path contents => exact (changes_put s path contents).touches rfl f
  | remove path => exact (changes_remove s path).touches rfl f

/-! ## Sessions and nodes -/

/-- Every session and every node is as before. -/
structure Still (s s' : State) : Prop where
  volumes : s'.volumes = s.volumes
  nodes : s'.tree.nodes = s.tree.nodes

theorem Still.refl (s : State) : Still s s := ⟨rfl, rfl⟩

theorem still_say (s : State) (v : Nat) (message : String) : Still s (s.say v message).1 :=
  ⟨volumes_say .., nodes_say ..⟩

theorem still_openFile (s : State) (v : Nat) (path : String) :
    Still s (s.openFile v path).state := by
  unfold openFile
  split
  · exact .refl s
  · split
    · exact .refl s
    · simp only
      split
      · exact still_say ..
      · exact still_say ..
      · exact ⟨volumes_say .., nodes_say ..⟩

theorem still_lock (s : State) (f : Nat) (kind : LockKind) :
    Still s (s.lock f kind).state := by
  unfold lock
  split
  · exact .refl s
  · split
    · exact ⟨volumes_say .., nodes_say ..⟩
    · exact .refl s

theorem still_read (s : State) (f size : Nat) : Still s (s.read f size).state := by
  unfold read
  split <;> exact ⟨rfl, rfl⟩

theorem still_close (s : State) (f : Nat) : Still s (s.close f).state := by
  unfold close
  split
  · exact .refl s
  · exact ⟨volumes_say .., nodes_say ..⟩

theorem still_finish (s : State) (v : Nat) : Still s (s.finish v).state := by
  unfold finish
  split
  · exact .refl s
  · exact still_say ..

/-! ## Files -/

theorem spares_openFile (s : State) (v : Nat) (path : String) :
    s.tree.Spares (¬s.Logs ·) (s.openFile v path).state.tree := by
  unfold openFile
  split
  · exact .refl _
  · split
    · exact .refl _
    · simp only
      split <;> exact (changes_say ..).tree

theorem spares_lock (s : State) (f : Nat) (kind : LockKind) :
    s.tree.Spares (¬s.Logs ·) (s.lock f kind).state.tree := by
  unfold lock
  split
  · exact .refl _
  · split
    · exact (changes_say ..).tree
    · exact .refl _

theorem spares_close (s : State) (f : Nat) :
    s.tree.Spares (¬s.Logs ·) (s.close f).state.tree := by
  unfold close
  split
  · exact .refl _
  · exact (changes_say (s.drop f) ..).tree

/-- The file that a move writes to directly, if it was there before. -/
def rewritten? (s : State) : Move → Option Nat
  | .put path _ => s.file? path
  | _ => none

/-- What a move does to the files: a direct write changes one at most, diagnostics only logs. -/
theorem spares_step (s : State) (m : Move) :
    s.tree.Spares (fun id => ¬s.Logs id ∧ s.rewritten? m ≠ some id) (s.step m).tree := by
  have hquiet {t : Tree} (h : s.tree.Spares (¬s.Logs ·) t) :
      s.tree.Spares (fun id => ¬s.Logs id ∧ s.rewritten? m ≠ some id) t :=
    h.mono fun _ hid => hid.1
  cases m with
  | connect url => exact hquiet (changes_connect s url).tree
  | setOption v d => exact hquiet (changes_setOption s v d).tree
  | setLogging v sink level => exact hquiet (changes_setLogging s v sink level).tree
  | openFile v path => exact hquiet (spares_openFile s v path)
  | lock f kind => exact hquiet (spares_lock s f kind)
  | read f size =>
      have h : (s.read f size).state.tree = s.tree := by
        unfold read
        split <;> rfl
      rw [step, h]
      exact .refl _
  | close f => exact hquiet (spares_close s f)
  | drop f => exact .refl _
  | finish v => exact hquiet (changes_finish s v).tree
  | put path contents => exact (changes_put s path contents).tree.mono fun _ hid => hid.2
  | remove path => exact (changes_remove s path).tree.mono fun _ _ => trivial

end State

/-! ## Runs of the program -/

def act? : Act Nat Nat → Option Move
  | .connect url _ => some (.connect url)
  | .setOption v d _ => some (.setOption v d)
  | .setLogging v sink level _ => some (.setLogging v sink level)
  | .openFile v path _ => some (.openFile v path)
  | .lock f kind _ => some (.lock f kind)
  | .read f size _ => some (.read f size)
  | .close f _ => some (.close f)
  | .finish v _ => some (.finish v)
  | .write .. | .flush _ => none

/-- What a run of the program does to an export is a run of moves. -/
theorem run_of_acts {w w' : World State} {as : List (Act Nat Nat)} (h : Acts provider w as w') :
    w'.state = w.state.run (as.filterMap act?) := by
  induction h with
  | refl => rfl
  | report level message _ ih => exact ih
  | @act w w₁ w' a as ha _ ih =>
      rw [ih]
      cases a <;> cases ha <;> rfl

end LockedCat.Export
