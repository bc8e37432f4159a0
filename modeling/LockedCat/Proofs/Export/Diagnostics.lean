import LockedCat.Proofs.Export.Moves
import LockedCat.Proofs.Export.Resolution

/-!
# Diagnostics

What the sessions of an export say of themselves, and where they say it. Main statement: a move that
is not made to change the files changes them by what is said into them only, each diagnostic in
full and after all that was there.
-/

namespace LockedCat.Export

/-! ## What is said, and where -/

/-- What a session says of itself. -/
inductive Diagnostic where
  | serving (name brick : String)
  | setting (directive : Directive)
  | overrides (key old : String)
  | opening (path resolved : String)
  | locked (kind : LockKind) (path : String)
  | closed (path : String)
  | finalizing (brick : String) (options : Nat)
deriving DecidableEq, Repr

namespace Diagnostic

def text : Diagnostic → String
  | serving name brick => "serving volume " ++ name ++ " from " ++ Text.quoted brick
  | setting d => "setting translator option " ++ d.display
  | overrides key old => key ++ " overrides earlier value '" ++ old ++ "'"
  | opening path resolved => "open " ++ path ++ " -> " ++ Text.quoted resolved
  | locked kind path => State.lockTitle kind ++ " lock acquired on " ++ path
  | closed path => "closed " ++ path
  | finalizing brick options =>
      "finalizing " ++ Text.quoted brick ++ " with " ++ toString options ++ " translator option(s)"

end Diagnostic

/-- Where a session says what it has to say. -/
inductive Place where
  /-- To whoever watches the events. -/
  | events
  | log (log : Log)
  | nowhere
deriving DecidableEq, Repr

/-- Where a session with this log says it, if it has one. Diagnostics are of the level for
debugging. -/
def Place.of : Option (Log × Level) → Place
  | none => events
  | some (l, .debug) | some (l, .trace) => log l
  | some (_, .error) | some (_, .warn) | some (_, .info) => nowhere

/-- A diagnostic, the session that it is of, and where it was said. -/
structure Remark where
  volume : Nat
  place : Place
  diagnostic : Diagnostic
deriving DecidableEq, Repr

namespace Remark

/-- What comes of a remark to those who listen. -/
def heard (s : State) (r : Remark) : List Note :=
  match r.place with
  | .events => [.event ⟨.debug, r.diagnostic.text⟩]
  | .log .stderr => [.line (s.line r.diagnostic.text)]
  | .log (.elsewhere id) => [.record id (s.line r.diagnostic.text)]
  | .log (.file _) | .nowhere => []

/-- What comes of a remark at the end of a file. -/
def written (s : State) (id : Nat) (r : Remark) : List UInt8 :=
  if r.place = .log (.file id) then (s.line r.diagnostic.text).toUTF8.toList else []

theorem heard_congr {s s' : State} (h : s'.now = s.now) (r : Remark) : r.heard s' = r.heard s := by
  simp only [heard, State.line, h]

theorem written_congr {s s' : State} (h : s'.now = s.now) (id : Nat) (r : Remark) :
    r.written s' id = r.written s id := by
  simp only [written, State.line, h]

end Remark

namespace State

variable {s s' : State} {id : Nat}

/-- Where a session says what it has to say. -/
def place (s : State) (v : Nat) : Place := .of ((s.volume? v).bind Volume.log)

theorem say_eq (s : State) (v : Nat) (message : String) :
    s.say v message =
      match s.place v with
      | .events => (s, [.event ⟨.debug, message⟩])
      | .log (.file id) =>
          ({ s with tree := s.tree.append id (s.line message).toUTF8.toList }, [])
      | .log .stderr => (s, [.line (s.line message)])
      | .log (.elsewhere id) => (s, [.record id (s.line message)])
      | .nowhere => (s, []) := by
  unfold say place
  cases (s.volume? v).bind Volume.log with
  | none => rfl
  | some x =>
      obtain ⟨log, most⟩ := x
      cases most <;> cases log <;> rfl

theorem log_of_place {v : Nat} (h : s.place v = .log (.file id)) :
    ∃ most, (s.volume? v).bind Volume.log = some (.file id, most) := by
  unfold place at h
  generalize (s.volume? v).bind Volume.log = log at h ⊢
  cases log with
  | none => cases h
  | some x =>
      obtain ⟨l, most⟩ := x
      cases most <;> cases h <;> exact ⟨_, rfl⟩

theorem logs_of_place {v : Nat} (h : s.place v = .log (.file id)) : s.Logs id := by
  obtain ⟨most, hlog⟩ := log_of_place h
  obtain ⟨x, hx, hl⟩ := Option.bind_eq_some_iff.mp hlog
  exact ⟨x, List.mem_of_getElem? hx, most, hl⟩

/-! ## One diagnostic -/

/-- The machine around the export is the same: the root, the time, the network and the paths that
do not stay below the root. -/
structure Fixed (s s' : State) : Prop where
  root : s'.root = s.root
  now : s'.now = s.now
  network : s'.network = s.network
  beyond : s'.beyond = s.beyond

theorem Fixed.refl (s : State) : Fixed s s := ⟨rfl, rfl, rfl, rfl⟩

theorem Fixed.trans {s s₁ s' : State} (h : Fixed s s₁) (h' : Fixed s₁ s') : Fixed s s' :=
  ⟨h'.root.trans h.root, h'.now.trans h.now, h'.network.trans h.network,
    h'.beyond.trans h.beyond⟩

theorem fixed_say (s : State) (v : Nat) (message : String) : Fixed s (s.say v message).1 := by
  rw [say_eq]
  split <;> exact ⟨rfl, rfl, rfl, rfl⟩

@[simp] theorem now_say (s : State) (v : Nat) (message : String) :
    (s.say v message).1.now = s.now := (fixed_say s v message).now

@[simp] theorem place_say (s : State) (u v : Nat) (message : String) :
    (s.say v message).1.place u = s.place u := by
  simp only [place, volume?, volumes_say]

theorem length_files_say (s : State) (v : Nat) (message : String) :
    (s.say v message).1.tree.files.length = s.tree.files.length := by
  rw [say_eq]
  split
  · rfl
  · exact Tree.length_setContents ..
  · rfl
  · rfl
  · rfl

theorem notes_say (s : State) (v : Nat) (d : Diagnostic) :
    (s.say v d.text).2 = Remark.heard s ⟨v, s.place v, d⟩ := by
  rw [say_eq, Remark.heard]
  cases s.place v with
  | log l => cases l <;> rfl
  | _ => rfl

theorem toList_contents_append (t : Tree) {id : Nat} (h : id < t.files.length)
    (bytes : List UInt8) :
    ((t.append id bytes).contents id).toList = (t.contents id).toList ++ bytes := by
  simp [Tree.append, Tree.setContents, Tree.contents, h]

/-- The files that diagnostics are said into are there. -/
def Housed (s : State) : Prop := ∀ id, s.Logs id → id < s.tree.files.length

theorem written_say (hs : s.Housed) (v : Nat) (d : Diagnostic) (id : Nat) :
    ((s.say v d.text).1.tree.contents id).toList =
      (s.tree.contents id).toList ++ Remark.written s id ⟨v, s.place v, d⟩ := by
  rw [say_eq, Remark.written]
  cases hp : s.place v with
  | events | nowhere => simp
  | log l =>
      cases l with
      | stderr | elsewhere => simp
      | file id' =>
          by_cases hid : id' = id
          · subst hid
            simp only [if_true]
            exact toList_contents_append s.tree (hs id' (logs_of_place hp)) _
          · simp only [Place.log.injEq, Log.file.injEq, hid, if_false, List.append_nil]
            exact congrArg Array.toList (Tree.contents_setContents_of_ne _ _ (Ne.symm hid))

/-! ## Several diagnostics -/

/-- Says one thing after the other. -/
def tell (s : State) : List (Nat × Diagnostic) → State × List Note
  | [] => (s, [])
  | (v, d) :: rest =>
      (((s.say v d.text).1.tell rest).1, (s.say v d.text).2 ++ ((s.say v d.text).1.tell rest).2)

/-- What is said now, each diagnostic where its session says it. -/
def remarks (s : State) (said : List (Nat × Diagnostic)) : List Remark :=
  said.map fun x => ⟨x.1, s.place x.1, x.2⟩

theorem remarks_say (s : State) (v : Nat) (message : String) (said : List (Nat × Diagnostic)) :
    (s.say v message).1.remarks said = s.remarks said := by
  simp only [remarks, place_say]

theorem Housed.say (hs : s.Housed) (v : Nat) (message : String) : (s.say v message).1.Housed := by
  intro id hid
  rw [length_files_say]
  refine hs id ?_
  simpa only [Logs, volumes_say] using hid

theorem notes_tell (s : State) (said : List (Nat × Diagnostic)) :
    (s.tell said).2 = (s.remarks said).flatMap (Remark.heard s) := by
  induction said generalizing s with
  | nil => rfl
  | cons x rest ih =>
      obtain ⟨v, d⟩ := x
      have hheard : Remark.heard (s.say v d.text).1 = Remark.heard s :=
        funext (Remark.heard_congr (now_say ..))
      rw [tell, notes_say, ih, remarks_say, hheard]
      rfl

theorem written_tell (hs : s.Housed) (said : List (Nat × Diagnostic)) (id : Nat) :
    ((s.tell said).1.tree.contents id).toList =
      (s.tree.contents id).toList ++ (s.remarks said).flatMap (Remark.written s id) := by
  induction said generalizing s with
  | nil => simp [tell, remarks]
  | cons x rest ih =>
      obtain ⟨v, d⟩ := x
      have hwritten : Remark.written (s.say v d.text).1 id = Remark.written s id :=
        funext (Remark.written_congr (now_say ..) id)
      rw [tell, ih (hs.say v d.text), written_say hs, remarks_say, hwritten, List.append_assoc]
      rfl

theorem nodes_tell (s : State) (said : List (Nat × Diagnostic)) :
    (s.tell said).1.tree.nodes = s.tree.nodes := by
  induction said generalizing s with
  | nil => rfl
  | cons x rest ih => rw [tell, ih, nodes_say]

theorem contents_say {v : Nat} (h : s.place v ≠ .log (.file id)) (message : String) :
    (s.say v message).1.tree.contents id = s.tree.contents id := by
  rw [say_eq]
  split
  · rfl
  · rename_i id' hplace
    refine Tree.contents_setContents_of_ne _ _ fun he => h ?_
    rw [hplace, he]
  · rfl
  · rfl
  · rfl

/-- What is said elsewhere does not change a file. -/
theorem contents_tell {said : List (Nat × Diagnostic)}
    (h : ∀ x ∈ said, s.place x.1 ≠ .log (.file id)) :
    (s.tell said).1.tree.contents id = s.tree.contents id := by
  induction said generalizing s with
  | nil => rfl
  | cons x rest ih =>
      have hrest : ∀ y ∈ rest, (s.say x.1 x.2.text).1.place y.1 ≠ .log (.file id) := by
        intro y hy
        rw [place_say]
        exact h y (List.mem_cons_of_mem x hy)
      rw [tell, ih hrest, contents_say (h x (List.mem_cons_self ..))]

/-! ## What a move lets be said -/

/-- What is said when a move is made, and by which session. -/
def spoken (s : State) : Move → List (Nat × Diagnostic)
  | .connect url =>
      match (s.connect url).result with
      | .error _ => []
      | .ok v => [(v, .serving url.volume (Path.join s.root url.volume))]
  | .setOption v d =>
      match s.volume? v with
      | none => []
      | some x =>
          (v, .setting d) :: ((x.option? d.key).map fun old => (v, .overrides d.key old)).toList
  | .openFile v path =>
      match s.volume? v with
      | none => []
      | some x =>
          match x.resolve path with
          | .error _ => []
          | .ok resolved => [(v, .opening path resolved)]
  | .lock f kind =>
      match s.handle? f with
      | none => []
      | some h => if s.isFree f h kind then [(h.volume, .locked kind h.path)] else []
  | .close f =>
      match s.handle? f with
      | none => []
      | some h => [(h.volume, .closed h.path)]
  | .finish v =>
      match s.volume? v with
      | none => []
      | some x => [(v, .finalizing x.brick x.options.length)]
  | _ => []

/-- The session that has something to say when a move is made, if any has. -/
def speaker? (s : State) : Move → Option Nat
  | .connect _ => some s.volumes.length
  | .setOption v _ | .setLogging v _ _ | .openFile v _ | .finish v => some v
  | .lock f _ | .read f _ | .close f | .drop f => (s.handle? f).map Handle.volume
  | .put .. | .remove _ => none

theorem speaker?_of_spoken {m : Move} {x : Nat × Diagnostic} (hx : x ∈ s.spoken m) :
    s.speaker? m = some x.1 := by
  cases m with
  | connect url =>
      rcases s.connect_eq url with ⟨c, he⟩ | ⟨-, -, ho⟩
      · simp [spoken, he] at hx
      · simp only [spoken, ho, List.mem_singleton] at hx
        rw [hx, speaker?]
  | setOption v d =>
      cases hv : s.volume? v with
      | none => simp [spoken, hv] at hx
      | some y =>
          simp only [spoken, hv, List.mem_cons, Option.mem_toList, Option.map_eq_some_iff] at hx
          rcases hx with rfl | ⟨old, -, rfl⟩ <;> rfl
  | openFile v path =>
      cases hv : s.volume? v with
      | none => simp [spoken, hv] at hx
      | some y =>
          cases hr : y.resolve path with
          | error e => simp [spoken, hv, hr] at hx
          | ok resolved =>
              simp only [spoken, hv, hr, List.mem_singleton] at hx
              rw [hx, speaker?]
  | lock f kind =>
      cases hf : s.handle? f with
      | none => simp [spoken, hf] at hx
      | some h =>
          simp only [spoken, hf] at hx
          split at hx
          · rw [List.mem_singleton.mp hx, speaker?, hf]
            rfl
          · cases hx
  | close f =>
      cases hf : s.handle? f with
      | none => simp [spoken, hf] at hx
      | some h =>
          simp only [spoken, hf, List.mem_singleton] at hx
          rw [hx, speaker?, hf]
          rfl
  | finish v =>
      cases hv : s.volume? v with
      | none => simp [spoken, hv] at hx
      | some y =>
          simp only [spoken, hv, List.mem_singleton] at hx
          rw [hx, speaker?]
  | setLogging | read | drop | put | remove => cases hx

/-- What is heard when a move is made. -/
def notes (s : State) : Move → List Note
  | .connect url => (s.connect url).notes
  | .setOption v d => (s.setOption v d).notes
  | .setLogging v sink level => (s.setLogging v sink level).notes
  | .openFile v path => (s.openFile v path).notes
  | .lock f kind => (s.lock f kind).notes
  | .read f size => (s.read f size).notes
  | .close f => (s.close f).notes
  | .finish v => (s.finish v).notes
  | .drop _ | .put .. | .remove _ => []

end State

/-- Whether a move writes to a file past the export. -/
def Move.rewrites : Move → Bool
  | .put .. => true
  | _ => false

namespace State

variable {s : State}

theorem place_of_length_le {v : Nat} (h : s.volumes.length ≤ v) : s.place v = .events := by
  simp [place, volume?, List.getElem?_eq_none h, Place.of]

theorem connect_tells (s : State) (url : Locator) :
    (s.connect url).state.tree = (s.tell (s.spoken (.connect url))).1.tree ∧
      (s.connect url).notes = (s.tell (s.spoken (.connect url))).2 := by
  have hnew (message : String) :
      s.say s.volumes.length message = (s, [.event ⟨.debug, message⟩]) := by
    rw [say_eq, place_of_length_le (Nat.le_refl _)]
  rcases s.connect_eq url with ⟨c, he⟩ | ⟨-, -, ho⟩
  · have hspoken : s.spoken (.connect url) = [] := by rw [spoken, he]
    rw [hspoken, he]
    exact ⟨rfl, rfl⟩
  · have hspoken : s.spoken (.connect url) =
        [(s.volumes.length, .serving url.volume (Path.join s.root url.volume))] := by
      rw [spoken, ho]
    rw [hspoken, ho, tell, tell, hnew]
    exact ⟨rfl, rfl⟩

theorem setOption_tells (s : State) (v : Nat) (d : Directive) :
    (s.setOption v d).state.tree = (s.tell (s.spoken (.setOption v d))).1.tree ∧
      (s.setOption v d).notes = (s.tell (s.spoken (.setOption v d))).2 := by
  cases hv : s.volume? v with
  | none => simp only [setOption, spoken, hv, unknown, tell, and_self]
  | some x =>
      cases ho : x.option? d.key with
      | none =>
          simp only [setOption, spoken, hv, ho, Option.map_none, Option.toList, tell,
            List.append_nil]
          exact ⟨rfl, rfl⟩
      | some old =>
          simp only [setOption, spoken, hv, ho, Option.map_some, Option.toList, tell,
            List.append_nil]
          exact ⟨rfl, rfl⟩

theorem openFile_tells (s : State) (v : Nat) (path : String) :
    (s.openFile v path).state.tree = (s.tell (s.spoken (.openFile v path))).1.tree ∧
      (s.openFile v path).notes = (s.tell (s.spoken (.openFile v path))).2 := by
  cases hv : s.volume? v with
  | none => simp only [openFile, spoken, hv, unknown, tell, and_self]
  | some x =>
      cases hn : Volume.names path with
      | error e => simp only [openFile, spoken, hv, hn, Volume.resolve, Except.map, tell, and_self]
      | ok names =>
          simp only [openFile, spoken, hv, hn, Volume.resolve, Except.map, tell, List.append_nil]
          split <;> exact ⟨rfl, rfl⟩

theorem lock_tells (s : State) (f : Nat) (kind : LockKind) :
    (s.lock f kind).state.tree = (s.tell (s.spoken (.lock f kind))).1.tree ∧
      (s.lock f kind).notes = (s.tell (s.spoken (.lock f kind))).2 := by
  cases hf : s.handle? f with
  | none => simp only [lock, spoken, hf, unknown, tell, and_self]
  | some h =>
      by_cases hfree : s.isFree f h kind
      · simp only [lock, spoken, hf, if_pos hfree, tell, List.append_nil]
        exact ⟨rfl, rfl⟩
      · simp only [lock, spoken, hf, if_neg hfree, tell, and_self]

theorem close_tells (s : State) (f : Nat) :
    (s.close f).state.tree = (s.tell (s.spoken (.close f))).1.tree ∧
      (s.close f).notes = (s.tell (s.spoken (.close f))).2 := by
  cases hf : s.handle? f with
  | none => simp only [close, spoken, hf, unknown, tell, and_self]
  | some h =>
      -- What is said does not depend on the open file that is left.
      have hsame (message : String) :
          ((s.drop f).say h.volume message).1.tree = (s.say h.volume message).1.tree ∧
            ((s.drop f).say h.volume message).2 = (s.say h.volume message).2 := by
        have hplace : (s.drop f).place h.volume = s.place h.volume := rfl
        rw [say_eq, say_eq, hplace]
        split <;> exact ⟨rfl, rfl⟩
      simp only [close, spoken, hf, tell, List.append_nil]
      exact hsame ("closed " ++ h.path)

theorem finish_tells (s : State) (v : Nat) :
    (s.finish v).state.tree = (s.tell (s.spoken (.finish v))).1.tree ∧
      (s.finish v).notes = (s.tell (s.spoken (.finish v))).2 := by
  cases hv : s.volume? v with
  | none => simp only [finish, spoken, hv, unknown, tell, and_self]
  | some x =>
      simp only [finish, spoken, hv, tell, List.append_nil]
      exact ⟨rfl, rfl⟩

/-- A file that is made for a log holds nothing, as one that there is not. -/
theorem contents_setLogging (s : State) (v : Nat) (sink : String) (level : Level) (id : Nat) :
    (s.setLogging v sink level).state.tree.contents id = s.tree.contents id := by
  rcases s.setLogging_eq v sink level with ⟨c, he⟩ | ⟨x, log, s₁, -, ho, hs⟩
  · rw [he]
  · rw [hs]
    rcases openLog_eq_ok ho with ⟨-, rfl⟩ | ⟨r, made, tree, -, hc, -, rfl⟩
    · rfl
    · exact Tree.contents_create hc id

theorem contents_remove (s : State) (path : String) (id : Nat) :
    (s.step (.remove path)).tree.contents id = s.tree.contents id := by
  rw [step, remove]
  cases hr : s.route path with
  | error e => rfl
  | ok r =>
      simp only
      cases ht : s.tree.remove r with
      | error e => rfl
      | ok tree =>
          show tree.contents id = s.tree.contents id
          rw [Tree.contents, Tree.files_remove ht, Tree.contents]

/-- Nothing that is done changes the machine around the export. -/
theorem fixed_step (s : State) (m : Move) : Fixed s (s.step m) := by
  cases m with
  | connect url =>
      rcases s.connect_eq url with ⟨c, he⟩ | ⟨-, -, ho⟩
      · rw [step, he]
        exact .refl s
      · rw [step, ho]
        exact ⟨rfl, rfl, rfl, rfl⟩
  | setOption v d =>
      rw [step, setOption]
      split
      · exact .refl s
      · rename_i x _
        simp only
        cases x.option? d.key with
        | none => exact (fixed_say ..).trans ⟨rfl, rfl, rfl, rfl⟩
        | some old =>
            exact ((fixed_say ..).trans (fixed_say ..)).trans ⟨rfl, rfl, rfl, rfl⟩
  | setLogging v sink level =>
      rcases s.setLogging_eq v sink level with ⟨c, he⟩ | ⟨x, log, s₁, -, ho, hs⟩
      · rw [step, he]
        exact .refl s
      · rw [step, hs]
        rcases openLog_eq_ok ho with ⟨-, rfl⟩ | ⟨r, id, tree, -, -, -, rfl⟩
        · exact ⟨rfl, rfl, rfl, rfl⟩
        · exact ⟨rfl, rfl, rfl, rfl⟩
  | openFile v path =>
      rw [step, openFile]
      split
      · exact .refl s
      · split
        · exact .refl s
        · simp only
          split
          · exact fixed_say ..
          · exact fixed_say ..
          · exact (fixed_say ..).trans ⟨rfl, rfl, rfl, rfl⟩
  | lock f kind =>
      rw [step, lock]
      split
      · exact .refl s
      · split
        · exact (fixed_say ..).trans ⟨rfl, rfl, rfl, rfl⟩
        · exact .refl s
  | read f size =>
      rw [step, read]
      split <;> exact ⟨rfl, rfl, rfl, rfl⟩
  | close f =>
      rw [step, close]
      split
      · exact .refl s
      · have hdrop : Fixed s (s.drop f) := ⟨rfl, rfl, rfl, rfl⟩
        exact hdrop.trans (fixed_say ..)
  | drop f => exact ⟨rfl, rfl, rfl, rfl⟩
  | finish v =>
      rw [step, finish]
      split
      · exact .refl s
      · exact fixed_say ..
  | put path contents =>
      rw [step, put]
      cases s.route path with
      | error e => exact .refl s
      | ok r =>
          simp only
          cases s.tree.put r contents <;> exact ⟨rfl, rfl, rfl, rfl⟩
  | remove path =>
      rw [step, remove]
      cases s.route path with
      | error e => exact .refl s
      | ok r =>
          simp only
          cases s.tree.remove r <;> exact ⟨rfl, rfl, rfl, rfl⟩

/-- What is heard of a move is what is said. -/
theorem notes_step (s : State) (m : Move) : s.notes m = (s.tell (s.spoken m)).2 := by
  cases m with
  | connect url => exact (connect_tells s url).2
  | setOption v d => exact (setOption_tells s v d).2
  | setLogging v sink level =>
      rcases s.setLogging_eq v sink level with ⟨c, he⟩ | ⟨x, log, s₁, -, -, hs⟩
      · exact congrArg (·.notes) he
      · exact congrArg (·.notes) hs
  | openFile v path => exact (openFile_tells s v path).2
  | lock f kind => exact (lock_tells s f kind).2
  | read f size =>
      rw [notes, read]
      split <;> rfl
  | close f => exact (close_tells s f).2
  | finish v => exact (finish_tells s v).2
  | drop | put | remove => rfl

/-- All that a modest move does to the files is what is said. -/
theorem tree_step {m : Move} (hm : m.modest) :
    (s.step m).tree = (s.tell (s.spoken m)).1.tree := by
  cases m with
  | connect url => exact (connect_tells s url).1
  | setOption v d => exact (setOption_tells s v d).1
  | setLogging v sink level =>
      rcases s.setLogging_eq v sink level with ⟨c, he⟩ | ⟨x, log, s₁, -, ho, hs⟩
      · rw [step, he]
        rfl
      · rw [openLog, if_pos (of_decide_eq_true hm)] at ho
        cases ho
        rw [step, hs]
        rfl
  | openFile v path => exact (openFile_tells s v path).1
  | lock f kind => exact (lock_tells s f kind).1
  | read f size =>
      rw [step, read]
      split <;> rfl
  | close f => exact (close_tells s f).1
  | drop f => rfl
  | finish v => exact (finish_tells s v).1
  | put | remove => cases hm

/-- Nothing is said when a log is opened or a name is taken away, and no file holds anything else
after that. -/
theorem silent_step {m : Move} (hm : m.rewrites = false) (hmodest : ¬m.modest) (id : Nat) :
    s.spoken m = [] ∧ (s.step m).tree.contents id = s.tree.contents id := by
  cases m with
  | setLogging v sink level => exact ⟨rfl, contents_setLogging s v sink level id⟩
  | remove path => exact ⟨rfl, contents_remove s path id⟩
  | put => cases hm
  | _ => exact absurd rfl hmodest

/-- Unless a file is written to directly, what is said into it comes after what it held, and
nothing else happens to it. -/
theorem written_step (hs : s.Housed) {m : Move} (hm : m.rewrites = false) (id : Nat) :
    ((s.step m).tree.contents id).toList =
      (s.tree.contents id).toList ++ (s.remarks (s.spoken m)).flatMap (Remark.written s id) := by
  by_cases hmodest : m.modest
  · rw [tree_step hmodest]
    exact written_tell hs _ id
  · obtain ⟨hspoken, hcontents⟩ := silent_step (s := s) hm hmodest id
    rw [hspoken, hcontents]
    exact (List.append_nil _).symm

/-- A file that nobody who speaks speaks into holds what it held, unless it is written to
directly. -/
theorem contents_step {m : Move} (hm : m.rewrites = false) {id : Nat}
    (hquiet : ∀ x ∈ s.spoken m, s.place x.1 ≠ .log (.file id)) :
    (s.step m).tree.contents id = s.tree.contents id := by
  by_cases hmodest : m.modest
  · rw [tree_step hmodest, contents_tell hquiet]
  · exact (silent_step hm hmodest id).2

end State

end LockedCat.Export
