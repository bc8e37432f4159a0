import LockedCat.Proofs.Agreement
import LockedCat.Proofs.Export.Confinement
import LockedCat.Proofs.Export.Destinations
import LockedCat.Proofs.Export.Paths

/-!
# What a session has to offer

The copy of a file of an export, from the look-up of its path to the last read. Main statement: a
session takes every directive, and what a copy finds through it is settled by the tree and by the
locks as they were when the session was new to the command, whatever the session says of itself
meanwhile, unless it says it into the file. A path without a file cannot be opened, a file on which
anybody holds a lock cannot be locked, and any other is given as it is.
-/

namespace LockedCat

open LockedCat.Path (Name)

namespace Export

namespace State

/-- The regular file under these names of a volume. -/
def regular? (s : State) (volume : Name) (names : List Name) : Option Nat :=
  match s.tree.node? (Path.texts (volume :: names)) with
  | some (.file id) => some id
  | _ => none

/-- The path that the operating system is asked for to open a file of a volume. -/
def located (s : State) (volume : Name) (names : List Name) : String :=
  (Path.texts names).foldl Path.join (Path.join s.root volume.text)

/-- The volume is there, and the operating system can be asked for it and for the files in it. -/
structure Exports (s : State) (volume : Name) : Prop where
  proper : s.tree.Proper
  directory : s.tree.node? [volume.text] = some .directory
  reachable : Path.rejection? (Path.join s.root volume.text) = none
  askable : ∀ names id, s.regular? volume names = some id →
    Path.rejection? (s.located volume names) = none

theorem regular?_eq_some {s : State} {volume : Name} {names : List Name} {id : Nat} :
    s.regular? volume names = some id ↔
      s.tree.node? (Path.texts (volume :: names)) = some (.file id) := by
  unfold regular?
  split
  · rename_i h
    rw [h, Option.some.injEq, Option.some.injEq, Node.file.injEq]
  · rename_i h
    simp only [reduceCtorEq, false_iff]
    exact fun he => h id he

/-! ## Looking for a file -/

/-- The file that an open looks for, in a session with this volume in this directory. -/
def seek (s : State) (brick name path : String) : Except IoError Nat :=
  match Volume.names path with
  | .error e => .error e
  | .ok names =>
      match s.find (names.foldl Path.join brick) (name :: names) with
      | .error e => .error e
      | .ok .directory => .error (.errno Errno.isADirectory)
      | .ok (.file id) => .ok id

variable {s s' : State} {v : Nat} {brick name path : String}

theorem seek_congr (h : s'.tree.nodes = s.tree.nodes) (brick name path : String) :
    s'.seek brick name path = s.seek brick name path := by
  simp only [seek, find, Tree.lookup_congr h]

theorem Serves.openFile_seek (h : s.Serves v brick name) (path : String) :
    (s.openFile v path).result = (s.seek brick name path).map (fun _ => s.handles.length) ∧
      ∀ id, s.seek brick name path = .ok id → (s.openFile v path).state.handles =
        s.handles ++ [some { file := id, path := path, volume := v }] := by
  obtain ⟨x, hx, rfl, rfl⟩ := h
  simp only [openFile, seek, hx]
  cases Volume.names path with
  | error e => exact ⟨rfl, by rintro _ ⟨⟩⟩
  | ok names =>
      simp only [find_say]
      cases s.find (names.foldl Path.join x.brick) (x.name :: names) with
      | error e => exact ⟨rfl, by rintro _ ⟨⟩⟩
      | ok node =>
          cases node with
          | directory => exact ⟨rfl, by rintro _ ⟨⟩⟩
          | file id =>
              refine ⟨by simp [Except.map], ?_⟩
              rintro _ ⟨⟩
              simp

theorem Exports.seek_canonical {volume : Name} (hs : s.Exports volume) (names : List Name)
    (id : Nat) :
    s.seek (Path.join s.root volume.text) volume.text (Path.canonical names) = .ok id ↔
      s.regular? volume names = some id := by
  have hfind : s.find (s.located volume names) (Path.texts (volume :: names)) = .ok (.file id) ↔
      s.regular? volume names = some id := by
    unfold find
    constructor
    · intro hfind
      split at hfind
      · cases hfind
      · exact regular?_eq_some.mpr (Tree.node?_of_lookup hfind)
    · intro hid
      rw [hs.askable names id hid]
      exact hs.proper.lookup (regular?_eq_some.mp hid)
  rw [← hfind, seek, Volume.names_canonical]
  have htexts : volume.text :: Path.texts names = Path.texts (volume :: names) := rfl
  simp only [htexts, located]
  split <;> simp_all

theorem Exports.connect_eq_ok {volume : Name} {url : Locator} (hs : s.Exports volume)
    (hreach : reach s.network url = .ok ()) (hvolume : url.volume = volume.text) :
    (provider.connect url s).result = .ok s.volumes.length := by
  have hfind : s.find (Path.join s.root volume.text) [volume.text] = .ok .directory := by
    unfold find
    rw [hs.reachable]
    exact hs.proper.lookup (show s.tree.node? (Path.texts [volume]) = _ from hs.directory)
  have hdots : ¬(volume.text = "." ∨ volume.text = "..") := not_or.mpr volume.ordinary
  simp only [provider, connect, hreach, hvolume, if_neg hdots, hfind]

end State

/-! ## Sessions that go on -/

/-- The nodes are as before, and so are the files that are to be kept. -/
structure Keeps (keep : Nat → Prop) (s s' : State) : Prop where
  fixed : s.Fixed s'
  nodes : s'.tree.nodes = s.tree.nodes
  contents : ∀ id, keep id → s'.tree.contents id = s.tree.contents id

/-- Meanwhile, this session has nothing to say into the files that are to be kept. -/
structure Discreet (v : Nat) (keep : Nat → Prop) (s s' : State) : Prop
    extends Keeps keep s s' where
  quiet : ∀ id, keep id → s'.place v ≠ .log (.file id)

theorem Keeps.refl (keep : Nat → Prop) (s : State) : Keeps keep s s :=
  ⟨.refl s, rfl, fun _ _ => rfl⟩

/-- A session can be made for a locator if one could be made for it before. -/
theorem Keeps.connect_eq_ok {keep : Nat → Prop} {s s' : State} (h : Keeps keep s s')
    {url : Locator} {v : Nat} (hv : (s.connect url).result = .ok v) :
    (s'.connect url).result = .ok s'.volumes.length := by
  have hfind (path : String) (names : List String) : s'.find path names = s.find path names := by
    simp only [State.find, Tree.lookup_congr h.nodes]
  simp only [State.connect, h.fixed.root, h.fixed.network, hfind] at hv ⊢
  cases hreach : reach s.network url with
  | error c => simp [hreach] at hv
  | ok reached =>
      simp only [hreach] at hv ⊢
      split at hv
      · cases hv
      · rename_i hdots
        rw [if_neg hdots]
        split at hv
        · cases hv
        · cases hv
        · rename_i hnode
          rfl

namespace Discreet

variable {s s' : State} {v : Nat} {keep : Nat → Prop} {w : World State}

/-- A modest move changes no file unless a session speaks. -/
theorem step (h : Discreet v keep s s') {m : Move} (hm : m.modest)
    (hv : ∀ u, s'.speaker? m = some u → u = v) : Discreet v keep s (s'.step m) where
  fixed := h.fixed.trans (s'.fixed_step m)
  nodes := by rw [State.tree_step hm, State.nodes_tell, h.nodes]
  contents id hid := by
    have hsaid : ∀ x ∈ s'.spoken m, s'.place x.1 ≠ .log (.file id) := by
      intro x hx
      rw [hv x.1 (State.speaker?_of_spoken hx)]
      exact h.quiet id hid
    rw [State.tree_step hm, State.contents_tell hsaid, h.contents id hid]
  quiet id hid := State.place_step hm (h.quiet id hid)

theorem openFile (h : Discreet v keep s s') (path : String) :
    Discreet v keep s (s'.openFile v path).state :=
  h.step (m := .openFile v path) rfl fun _ hu => (Option.some.inj hu).symm

theorem finish (h : Discreet v keep s s') : Discreet v keep s (s'.finish v).state :=
  h.step (m := .finish v) rfl fun _ hu => (Option.some.inj hu).symm

theorem of_file (h : Discreet v keep s s') {m : Move} {f : Nat} (hm : m.file? = some f)
    (hv : ∀ x, s'.handle? f = some x → x.volume = v) : Discreet v keep s (s'.step m) := by
  have hspeaker (g : Nat) (hg : g = f) (u : Nat)
      (hu : (s'.handle? g).map Handle.volume = some u) : u = v := by
    obtain ⟨x, hx, rfl⟩ := Option.map_eq_some_iff.mp hu
    exact hv x (hg ▸ hx)
  cases m with
  | lock g | read g | close g | drop g => exact h.step rfl (hspeaker g (Option.some.inj hm))
  | _ => cases hm

theorem copy (h : Discreet v keep s w.state) (path target : String) (chunk : Nat) :
    Discreet v keep s (Copy.copy provider v path target chunk w).2.state :=
  State.copy_invariant (fun _ h => h.openFile path) (fun _ _ _ h hm hv => h.of_file hm hv) target
    chunk h

end Discreet

/-- A session with the volume in this directory, and a state in which it can be used for a copy as
if it were the first one. -/
structure Serving (s : State) (brick name : String) (keep : Nat → Prop) (v : Nat) (s' : State) :
    Prop where
  serves : s'.Serves v brick name
  discreet : Discreet v keep s s'
  handles : ∀ f, s'.handle? f = s.handle? f

namespace Serving

variable {s s' : State} {brick name path : String} {keep : Nat → Prop} {v id : Nat}

theorem mono (h : Serving s brick name keep v s') {keep' : Nat → Prop}
    (hk : ∀ id, keep' id → keep id) : Serving s brick name keep' v s' :=
  ⟨h.serves,
    ⟨⟨h.discreet.fixed, h.discreet.nodes, fun id hid => h.discreet.contents id (hk id hid)⟩,
      fun id hid => h.discreet.quiet id (hk id hid)⟩,
    h.handles⟩

theorem step (h : Serving s brick name keep v s') {m : Move} (hm : m.modest)
    (hv : ∀ u, s'.speaker? m = some u → u = v) (hf : m.file? = none)
    (ho : ∀ u path, m ≠ .openFile u path) : Serving s brick name keep v (s'.step m) where
  serves := h.serves.step m
  discreet := h.discreet.step hm hv
  handles f := by
    have hne : m.file? ≠ some f := by
      rw [hf]
      nofun
    rw [State.handle?_step_of_ne hne ho, h.handles]

theorem obliging (s : State) (brick name : String) (keep : Nat → Prop) :
    Obliging provider (Serving s brick name keep) where
  setOption v d s' h := by
    have hresult : (s'.setOption v d).result = .ok () := by
      obtain ⟨x, hx, -⟩ := h.serves
      exact (State.setOption_ok hx d).1
    refine ⟨hresult, h.step (m := .setOption v d) rfl ?_ rfl ?_⟩
    · exact fun _ hu => (Option.some.inj hu).symm
    · rintro _ _ ⟨⟩
  setLogging v s' h := by
    have hresult : (s'.setLogging v Config.debugLog .debug).result = .ok () := by
      obtain ⟨x, hx, -⟩ := h.serves
      simp [State.setLogging, hx, State.openLog]
    have hmodest : (Move.setLogging v Config.debugLog .debug).modest := by simp [Move.modest]
    refine ⟨hresult, h.step hmodest ?_ rfl ?_⟩
    · exact fun _ hu => (Option.some.inj hu).symm
    · rintro _ _ ⟨⟩

end Serving

/-! ## What a copy finds -/

/-- The file with this identity is open and was read so far. -/
def Reached (f id : Nat) (data : Contents) (position : Nat) (s : State) : Prop :=
  ∃ h, s.handle? f = some h ∧ h.file = id ∧ h.position = position ∧ s.tree.contents id = data

theorem steady (f id : Nat) (data : Contents) :
    Steady provider f data (min · readLimit) (Reached f id data) where
  most_pos size hsize := by
    unfold readLimit
    omega
  result position size s := by
    rintro ⟨h, hh, rfl, rfl, rfl⟩
    simp [provider, State.read, hh, State.stretch]
  advance position size s := by
    rintro ⟨h, hh, rfl, rfl, rfl⟩
    refine ⟨{ h with position := h.position + (s.stretch h size).length }, ?_, rfl, rfl, ?_⟩
    · simp [provider, State.read, hh, State.handle?_setHandle_self hh]
    · simp only [provider, State.read, hh]
      rfl

theorem Reached.close {f id position : Nat} {data : Contents} {s : State}
    (h : Reached f id data position s) : (provider.close f s).result = .ok () := by
  obtain ⟨x, hx, -⟩ := h
  simp [provider, State.close, hx]

section Opened

variable {s s₁ : State} {h : Handle} (hs : s₁.handles = s.handles ++ [some h])
include hs

theorem handle?_opened (f : Nat) :
    s₁.handle? f = if f = s.handles.length then some h else s.handle? f := by
  rw [← State.handle?_append]
  exact State.handle?_congr hs f

/-- A file that was just opened can be locked for writing if nobody holds a lock on it. -/
theorem isFree_opened_iff :
    s₁.isFree s.handles.length h .write ↔ ¬∃ f kind, s.Holds f h.file kind := by
  rw [State.isFree_iff]
  constructor
  · rintro hfree ⟨g, kind, x, hx, hfile, hlock⟩
    have hg : g ≠ s.handles.length := Nat.ne_of_lt (State.lt_of_handle? hx)
    have := hfree g x kind hg (by rw [handle?_opened hs, if_neg hg, hx]) hfile hlock
    cases kind <;> cases this
  · intro hnone g x kind hg hx hfile hlock
    rw [handle?_opened hs, if_neg hg] at hx
    exact absurd ⟨g, kind, x, hx, hfile, hlock⟩ hnone

end Opened

namespace Serving

variable {s s' : State} {brick name path : String} {keep : Nat → Prop} {v id : Nat}

theorem seek_eq (h : Serving s brick name keep v s') (path : String) :
    s'.seek brick name path = s.seek brick name path := State.seek_congr h.discreet.nodes ..

theorem holds_iff (h : Serving s brick name keep v s') (id : Nat) :
    (∃ f kind, s'.Holds f id kind) ↔ ∃ f kind, s.Holds f id kind :=
  exists_congr fun f => exists_congr fun kind => State.holds_congr (h.handles f) id kind

theorem openFile_error (h : Serving s brick name keep v s') {e : IoError}
    (he : s.seek brick name path = .error e) : (s'.openFile v path).result = .error e := by
  rw [(h.serves.openFile_seek path).1, h.seek_eq, he]
  rfl

theorem openFile_ok (h : Serving s brick name keep v s') (hid : s.seek brick name path = .ok id) :
    (s'.openFile v path).result = .ok s'.handles.length ∧ (s'.openFile v path).state.handles =
      s'.handles ++ [some { file := id, path := path, volume := v }] := by
  obtain ⟨hresult, hhandles⟩ := h.serves.openFile_seek path
  rw [h.seek_eq, hid] at hresult
  exact ⟨hresult, hhandles id (by rw [h.seek_eq, hid])⟩

theorem finds_absent (h : Serving s brick name keep v s') {e : IoError}
    (he : s.seek brick name path = .error e) (most : Nat → Nat) :
    Finds provider v path s' most (.error e) := .absent (h.openFile_error he)

theorem finds_locked (h : Serving s brick name keep v s') (hid : s.seek brick name path = .ok id)
    (hheld : ∃ f kind, s.Holds f id kind) (most : Nat → Nat) :
    Finds provider v path s' most (.ok (.error (.errno Errno.wouldBlock))) := by
  obtain ⟨hresult, hhandles⟩ := h.openFile_ok hid
  have hopen := handle?_opened hhandles s'.handles.length
  rw [if_pos rfl] at hopen
  have hlock : ((s'.openFile v path).state.lock s'.handles.length .write).result =
      .error (.errno Errno.wouldBlock) := by
    have hfree := mt (isFree_opened_iff hhandles).mp
      (not_not_intro ((h.holds_iff id).mpr hheld))
    simp [State.lock, hopen, hfree]
  refine .locked hresult hlock ?_
  rw [show (provider.lock s'.handles.length .write (provider.openFile v path s').state).state =
    (s'.openFile v path).state from State.lock_state_of_error hlock]
  simp [provider, State.close, hopen]

theorem finds_granted (h : Serving s brick name keep v s') (hid : s.seek brick name path = .ok id)
    (hkeep : keep id) (hfree : ¬∃ f kind, s.Holds f id kind) :
    Finds provider v path s' (min · readLimit) (.ok (.ok (s.tree.contents id))) := by
  obtain ⟨hresult, hhandles⟩ := h.openFile_ok hid
  have hopen := handle?_opened hhandles s'.handles.length
  rw [if_pos rfl] at hopen
  have hfree := (isFree_opened_iff hhandles).mpr (mt (h.holds_iff id).mp hfree)
  -- Neither what is said of the open nor what is said of the lock goes into the file.
  have hopened : Discreet v keep s (s'.openFile v path).state := h.discreet.openFile path
  have hlocked :
      Discreet v keep s ((s'.openFile v path).state.lock s'.handles.length .write).state :=
    hopened.of_file (m := .lock s'.handles.length .write) rfl fun x hx => by
      rw [hopen, Option.some.injEq] at hx
      rw [← hx]
  refine .granted hresult (State.lock_eq_ok_iff.mpr ⟨_, hopen, hfree⟩)
    (steady s'.handles.length id (s.tree.contents id)) ?_ (fun position s h => h.close)
  refine ⟨{ file := id, path := path, volume := v, lock := some .write }, ?_, rfl, rfl,
    hlocked.contents id hkeep⟩
  have := State.handle?_lock hopen hfree s'.handles.length
  rwa [if_pos rfl] at this

/-- A file that is not there or on which anybody holds a lock is not granted. -/
theorem finds_refused (h : Serving s brick name keep v s')
    (hno : ∀ id, s.seek brick name path = .ok id → ∃ f kind, s.Holds f id kind)
    (most : Nat → Nat) :
    ∃ found, Finds provider v path s' most found ∧ ∀ data, found ≠ .ok (.ok data) := by
  cases hseek : s.seek brick name path with
  | error e => exact ⟨_, h.finds_absent hseek most, nofun⟩
  | ok id => exact ⟨_, h.finds_locked hseek (hno id hseek) most, nofun⟩

end Serving

/-- What a copy finds does not depend on the session, nor on anything that happened since if nothing
became of the files and of the locks. -/
theorem exists_finds (s : State) (brick name path : String) :
    ∃ found, ∀ keep v s', (∀ id, s.seek brick name path = .ok id → keep id) →
      Serving s brick name keep v s' → Finds provider v path s' (min · readLimit) found := by
  cases hseek : s.seek brick name path with
  | error e => exact ⟨_, fun keep v s' _ h => h.finds_absent hseek _⟩
  | ok id =>
      by_cases hheld : ∃ f kind, s.Holds f id kind
      · exact ⟨_, fun keep v s' _ h => h.finds_locked hseek hheld _⟩
      · exact ⟨_, fun keep v s' hkeep h => h.finds_granted hseek (hkeep id rfl) hheld⟩

/-! ## Sessions on a volume -/

/-- A session that is made now can be used as if it had been made before, if nothing became of the
files and of the locks since. -/
theorem Keeps.connect_serving {s s' : State} (h : Keeps (fun _ => True) s s')
    (hhandles : ∀ f, s'.handle? f = s.handle? f) {url : Locator} {v : Nat}
    (hv : (s'.connect url).result = .ok v) :
    Serving s (Path.join s.root url.volume) url.volume (fun _ => True) v
      (s'.connect url).state := by
  obtain ⟨-, hserves⟩ := State.connect_eq_ok hv
  rw [h.fixed.root] at hserves
  rcases s'.connect_eq url with ⟨c, he⟩ | ⟨-, -, ho⟩
  · rw [he] at hv
    cases hv
  · rw [ho] at hv hserves ⊢
    cases hv
    refine ⟨hserves,
      ⟨⟨h.fixed.trans ⟨rfl, rfl, rfl, rfl⟩, h.nodes, h.contents⟩, fun id _ => ?_⟩, hhandles⟩
    simp [State.place, State.volume?, Place.of]

/-! ## What an exported volume offers -/

namespace Serving

variable {s s' : State} {volume : Name} {names : List Name} {keep : Nat → Prop} {v : Nat}

theorem offers_absent (h : Serving s (Path.join s.root volume.text) volume.text keep v s')
    (hs : s.Exports volume) (hn : s.regular? volume names = none) (most : Nat → Nat) :
    Offers provider v (Path.canonical names) s' most none := by
  cases hseek : s.seek (Path.join s.root volume.text) volume.text (Path.canonical names) with
  | error e => exact ⟨_, h.finds_absent hseek most, rfl⟩
  | ok id =>
      rw [(hs.seek_canonical names id).mp hseek] at hn
      cases hn

theorem offers_locked (h : Serving s (Path.join s.root volume.text) volume.text keep v s')
    (hs : s.Exports volume) {id : Nat} (hid : s.regular? volume names = some id)
    (hheld : ∃ f kind, s.Holds f id kind) (most : Nat → Nat) :
    Offers provider v (Path.canonical names) s' most (some none) :=
  ⟨_, h.finds_locked ((hs.seek_canonical names id).mpr hid) hheld most, rfl⟩

theorem offers_granted (h : Serving s (Path.join s.root volume.text) volume.text keep v s')
    (hs : s.Exports volume) {id : Nat} (hid : s.regular? volume names = some id) (hkeep : keep id)
    (hfree : ¬∃ f kind, s.Holds f id kind) :
    Offers provider v (Path.canonical names) s' (min · readLimit)
      (some (some (s.tree.contents id))) :=
  ⟨_, h.finds_granted ((hs.seek_canonical names id).mpr hid) hkeep hfree, rfl⟩

end Serving

end Export

end LockedCat
