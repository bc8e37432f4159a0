import LockedCat.Proofs.Export.ProperTrees
import LockedCat.Proofs.Export.Resolution
import LockedCat.Proofs.Export.Sessions
import LockedCat.Proofs.LocatorForms

/-!
# Confinement

A session never leaves the directory of its volume. Main statement: a session that was opened for
a locator has a directory of the root for its brick, and whatever is done to the export from then
on, a path leads out of the brick under no spelling: it is refused, or it is looked up below the
brick under the names that remain of it, and what is read through the open file is of the file that
was there.
-/

namespace LockedCat

open LockedCat.Path (Name components remaining Extends)

/-! ## Look-ups below a directory -/

namespace Tree

variable {t t' : Tree}

theorem walk_congr (h : t'.nodes = t.nodes) (here names : List String) :
    t'.walk here names = t.walk here names := by
  induction names generalizing here with
  | nil => rfl
  | cons name rest ih => simp only [walk, node?_congr h, ih]

theorem lookup_congr (h : t'.nodes = t.nodes) (r : Route) : t'.lookup r = t.lookup r := by
  simp only [lookup, walk_congr h, node?_congr h]

/-- Two trees with the same nodes at these names and below. -/
def AgreeBelow (here : List String) (t t' : Tree) : Prop :=
  ∀ names, t'.node? (here ++ names) = t.node? (here ++ names)

namespace AgreeBelow

variable {here : List String}

theorem node? (h : AgreeBelow here t t') : t'.node? here = t.node? here := by
  have := h []
  rwa [List.append_nil] at this

theorem below (h : AgreeBelow here t t') (name : String) : AgreeBelow (here ++ [name]) t t' := by
  intro names
  rw [List.append_assoc]
  exact h ([name] ++ names)

/-- Names that stand for themselves never lead up again. -/
theorem walk (h : AgreeBelow here t t') (names : List Name) :
    t'.walk here (Path.texts names) = t.walk here (Path.texts names) := by
  induction names generalizing here with
  | nil => rfl
  | cons name rest ih =>
      have hrest := ih (h.below name.text)
      have hhere := h.node?
      have hnext := (h.below name.text).node?
      simp only [Path.texts, List.map_cons, Tree.walk, if_neg name.ordinary.1,
        if_neg name.ordinary.2] at hrest ⊢
      rw [hhere, hnext, hrest]

theorem lookup {volume : Name} (h : AgreeBelow [volume.text] t t') (names : List Name) :
    t'.lookup { names := Path.texts (volume :: names) } =
      t.lookup { names := Path.texts (volume :: names) } := by
  have hwalk : t'.walk [] (Path.texts (volume :: names)) =
      t.walk [] (Path.texts (volume :: names)) := by
    have hroot (t : Tree) : t.node? [] = some .directory := rfl
    have hnode := h.node?
    have hrest := h.walk names
    simp only [Path.texts, List.map_cons, Tree.walk, hroot, List.nil_append,
      if_neg volume.ordinary.1, if_neg volume.ordinary.2] at hrest ⊢
    rw [hnode, hrest]
  unfold Tree.lookup
  rw [hwalk]
  cases hend : t.walk [] (Path.texts (volume :: names)) with
  | error e => rfl
  | ok there =>
      have hthere : there = [] ++ Path.texts (volume :: names) := walk_texts hend
      have hnode : t'.node? there = t.node? there := by
        rw [hthere]
        exact h (Path.texts names)
      simp only [hnode]

end AgreeBelow

end Tree

namespace Export.State

variable {s : State} {v : Nat}

theorem find_say (s : State) (v : Nat) (message path : String) (names : List String) :
    (s.say v message).1.find path names = s.find path names := by
  simp only [find, Tree.lookup_congr (s.nodes_say v message)]

theorem node?_of_find {p : String} {names : List Name} {id : Nat}
    (h : s.find p (Path.texts names) = .ok (.file id)) :
    s.tree.node? (Path.texts names) = some (.file id) := by
  unfold find at h
  split at h
  · cases h
  · exact Tree.node?_of_lookup h

/-! ## Opening -/

/-- What is answered to an open for what was found at the end of the path. -/
def opening (s : State) : Except IoError Node → Except IoError Nat
  | .error e => .error e
  | .ok .directory => .error (.errno Errno.isADirectory)
  | .ok (.file _) => .ok s.handles.length

theorem opening_eq_ok {found : Except IoError Node} {f : Nat} (h : s.opening found = .ok f) :
    f = s.handles.length ∧ ∃ id, found = .ok (.file id) := by
  unfold opening at h
  split at h
  · cases h
  · cases h
  · rename_i id
    exact ⟨(Except.ok.inj h).symm, id, rfl⟩

variable {x : Volume} {path : String}

/-- A path that is refused is not even mentioned in the log. -/
theorem openFile_refused (hx : s.volume? v = some x) (h : ".." ∈ components path) :
    s.openFile v path = ⟨s, .error (.simple .permissionDenied), []⟩ := by
  simp only [openFile, hx, Volume.names_eq, if_pos h]

/-- Where a path leads: to the names that remain of it, below the name of the volume. -/
def findIn (s : State) (x : Volume) (path : String) : Except IoError Node :=
  s.find ((remaining path).foldl Path.join x.brick) (x.name :: remaining path)

theorem openFile_looked (hx : s.volume? v = some x) (h : ".." ∉ components path) :
    (s.openFile v path).result = s.opening (s.findIn x path) ∧
      ∀ id, s.findIn x path = .ok (.file id) → (s.openFile v path).state.handles =
        s.handles ++ [some { file := id, path := path, volume := v }] := by
  simp only [openFile, hx, Volume.names_eq, if_neg h, find_say]
  rw [← findIn]
  split
  · rename_i e he
    rw [he]
    exact ⟨rfl, nofun⟩
  · rename_i hdir
    rw [hdir]
    exact ⟨rfl, nofun⟩
  · rename_i id hid
    rw [hid]
    simp [opening]

/-- What an open answers is settled by the path and by what is found at its end. -/
theorem result_openFile (hx : s.volume? v = some x) (path : String) :
    (s.openFile v path).result =
      if ".." ∈ components path then .error (.simple .permissionDenied)
      else s.opening (s.findIn x path) := by
  by_cases h : ".." ∈ components path
  · rw [if_pos h, openFile_refused hx h]
  · rw [if_neg h, (openFile_looked hx h).1]

theorem openFile_eq_ok {f : Nat} (hx : s.volume? v = some x)
    (hopen : (s.openFile v path).result = .ok f) :
    ".." ∉ components path ∧ ∃ id, s.findIn x path = .ok (.file id) ∧
      (s.openFile v path).state.handle? f = some { file := id, path := path, volume := v } := by
  by_cases h : ".." ∈ components path
  · rw [openFile_refused hx h] at hopen
    cases hopen
  · obtain ⟨hresult, hhandles⟩ := openFile_looked hx h
    rw [hresult] at hopen
    obtain ⟨rfl, id, hid⟩ := opening_eq_ok hopen
    refine ⟨h, id, hid, ?_⟩
    rw [handle?, hhandles id hid, List.getElem?_concat_length]
    rfl

variable {volume : Name}

theorem exists_texts_below (volume : Name) (h : ".." ∉ components path) :
    ∃ names : List Name, Path.texts (volume :: names) = volume.text :: remaining path := by
  obtain ⟨names, hnames⟩ := Path.exists_texts_eq_remaining h
  exact ⟨names, congrArg (volume.text :: ·) hnames⟩

theorem node?_of_findIn (hname : x.name = volume.text) {id : Nat} (h : ".." ∉ components path)
    (hfind : s.findIn x path = .ok (.file id)) :
    s.tree.node? (volume.text :: remaining path) = some (.file id) := by
  obtain ⟨names, hnames⟩ := exists_texts_below volume h
  rw [findIn, hname, ← hnames] at hfind
  rw [← hnames]
  exact node?_of_find hfind

theorem findIn_of_agreeBelow {t : Tree} (hname : x.name = volume.text)
    (hagree : t.AgreeBelow [volume.text] s.tree) (h : ".." ∉ components path) :
    { s with tree := t }.findIn x path = s.findIn x path := by
  obtain ⟨names, hnames⟩ := exists_texts_below volume h
  have hlookup := hagree.lookup names
  rw [hnames] at hlookup
  simp only [findIn, find, hname, hlookup]

theorem openFile_within (hx : s.volume? v = some x) (hname : x.name = volume.text) {t : Tree}
    (hagree : t.AgreeBelow [volume.text] s.tree) (path : String) :
    ({ s with tree := t }.openFile v path).result = (s.openFile v path).result := by
  have hx' : { s with tree := t }.volume? v = some x := hx
  rw [result_openFile hx, result_openFile hx']
  by_cases h : ".." ∈ components path
  · rw [if_pos h, if_pos h]
  · rw [if_neg h, if_neg h, findIn_of_agreeBelow hname hagree h]
    rfl

theorem openFile_alike (hx : s.volume? v = some x) {path path' : String}
    (hrest : remaining path = remaining path') :
    (s.openFile v path).result = (s.openFile v path').result ∧
      ∀ f, (s.openFile v path).result = .ok f →
        ((s.openFile v path).state.handle? f).map Handle.file =
          ((s.openFile v path').state.handle? f).map Handle.file := by
  have hdots : ".." ∈ components path ↔ ".." ∈ components path' := by
    rw [← Path.dots_mem_remaining, hrest, Path.dots_mem_remaining]
  have hfind : s.findIn x path = s.findIn x path' := by
    unfold findIn
    rw [hrest]
  have hresult : (s.openFile v path).result = (s.openFile v path').result := by
    simp only [result_openFile hx, hdots, hfind]
  refine ⟨hresult, fun f hopen => ?_⟩
  obtain ⟨-, id, hid, hhandle⟩ := openFile_eq_ok hx hopen
  rw [hresult] at hopen
  obtain ⟨-, id', hid', hhandle'⟩ := openFile_eq_ok hx hopen
  rw [← hfind, hid] at hid'
  cases hid'
  rw [hhandle, hhandle']
  rfl

/-! ## Sessions -/

/-- What a session can reach whose brick is the directory of this volume. -/
structure Confined (s : State) (v : Nat) (brick : String) (volume : Name) : Prop where
  /-- The session keeps its brick, and what it makes of a path is seen from the path alone. -/
  session : ∃ x, s.volume? v = some x ∧ x.brick = brick ∧ x.name = volume.text ∧
    ∀ path, (x.resolve path = .error (.simple .permissionDenied) ↔ ".." ∈ components path) ∧
      (".." ∉ components path →
        x.resolve path = .ok ((remaining path).foldl Path.join brick) ∧
        Extends brick (remaining path) ((remaining path).foldl Path.join brick))
  /-- What is looked up is what the path was resolved to. -/
  looked : ∀ path, ".." ∉ components path → (s.openFile v path).result =
    s.opening (s.find ((remaining path).foldl Path.join brick) (volume.text :: remaining path))
  /-- Nothing is done for a path with two dots among its components. -/
  refused : ∀ path, ".." ∈ components path →
    s.openFile v path = ⟨s, .error (.simple .permissionDenied), []⟩
  /-- Nothing else than what is in the directory of the volume matters to an open. -/
  within : ∀ path t, t.AgreeBelow [volume.text] s.tree →
    ({ s with tree := t }.openFile v path).result = (s.openFile v path).result
  /-- A file that is opened is under the remaining components, and it is the one that is read. -/
  opened : ∀ path f, (s.openFile v path).result = .ok f → ∃ id,
    s.tree.node? (volume.text :: remaining path) = some (.file id) ∧
    (∃ h, (s.openFile v path).state.handle? f = some h ∧ h.file = id) ∧
    (s.openFile v path).state.Reaches f id
  /-- The spelling of a path does not matter. -/
  alike : ∀ path path', remaining path = remaining path' →
    (s.openFile v path).result = (s.openFile v path').result ∧
    ∀ f, (s.openFile v path).result = .ok f →
      ((s.openFile v path).state.handle? f).map Handle.file =
        ((s.openFile v path').state.handle? f).map Handle.file

theorem Serves.confined {brick : String} (h : s.Serves v brick volume.text) :
    s.Confined v brick volume := by
  obtain ⟨x, hx, rfl, hname⟩ := h
  exact {
    session := ⟨x, hx, rfl, hname, fun path =>
      ⟨Volume.resolve_eq_denied_iff, Volume.resolve_extends x⟩⟩
    looked := by
      intro path h
      rw [(openFile_looked hx h).1, findIn, hname]
    refused := fun path h => openFile_refused hx h
    within := fun path t h => openFile_within hx hname h path
    opened := by
      intro path f hopen
      obtain ⟨h, id, hid, hhandle⟩ := openFile_eq_ok hx hopen
      have hnode := node?_of_findIn hname h hid
      exact ⟨id, hnode, ⟨_, hhandle, rfl⟩, (Given.of_handle? hhandle).reaches⟩
    alike := fun path path' h => openFile_alike hx h }

/-- The volume of a locator is a name that a directory of the root can have, unless it is dots. -/
theorem exists_name_of_parse {raw : String} {standard : UInt16} {url : Locator}
    (h : Locator.parse raw standard = .ok url) (hdots : url.volume ≠ "." ∧ url.volume ≠ "..") :
    ∃ volume : Name, volume.text = url.volume := by
  obtain ⟨form, -, rfl⟩ := Locator.parse_eq_ok_iff.mp h
  have hempty : String.ofList form.volume ≠ "" :=
    fun he => form.volume_nonempty (String.ofList_eq_empty_iff.mp he)
  have hslash : '/' ∉ (String.ofList form.volume).toList := by
    rw [String.toList_ofList]
    exact form.volume_free
  exact ⟨⟨_, hempty, hdots, hslash⟩, rfl⟩

/-- A session that was opened for a locator never leaves the directory of its volume, whatever is
done to the export meanwhile and however a path is spelled. -/
theorem connect_confined {raw : String} {standard : UInt16} {url : Locator}
    (hparse : Locator.parse raw standard = .ok url) (hconnect : (s.connect url).result = .ok v) :
    ∃ volume : Name, volume.text = url.volume ∧
      Extends s.root [volume.text] (Path.join s.root volume.text) ∧
      ∀ ms, ((s.connect url).state.run ms).Confined v (Path.join s.root volume.text) volume := by
  obtain ⟨hdots, hserves⟩ := connect_eq_ok hconnect
  obtain ⟨volume, hvolume⟩ := exists_name_of_parse hparse hdots
  rw [← hvolume] at hserves
  exact ⟨volume, hvolume, Path.extends_join s.root volume, fun ms => (hserves.run ms).confined⟩

/-- A file is found under an odd spelling of its path, and a file beside the volume is not. -/
theorem connect_confined_spellings :
    let s : State := {
      root := "/srv"
      now := { year := 2024, month := 1, day := 1 }
      tree := {
        nodes := [(["secret"], .file 0), (["v"], .directory), (["v", "f"], .file 1)]
        files := [#[1], #[2, 3]] } }
    let url : Locator := { host := "localhost", volume := "v", path := "/f", port := 24007 }
    Locator.parse "glfs://localhost/v/f" 24007 = .ok url ∧ (s.connect url).result = .ok 0 ∧
      ((s.connect url).state.openFile 0 "f/.//").result = .ok 0 ∧
      ((s.connect url).state.openFile 0 "./../secret").result =
        .error (.simple .permissionDenied) := by
  intro s url
  have hparse : Locator.parse "glfs://localhost/v/f" 24007 = .ok url := by rfl
  have hok {ε : Type} (r : Except ε Nat) (h : r.toOption = some 0) : r = .ok 0 := by
    cases r with
    | error e => cases h
    | ok n => simpa [Except.toOption] using h
  have hconnect : (s.connect url).result = .ok 0 := hok _ (by decide +kernel +zetaReduce)
  obtain ⟨volume, -, -, hconfined⟩ := connect_confined hparse hconnect
  have h : (s.connect url).state.Confined 0 (Path.join s.root volume.text) volume := hconfined []
  have hplain : ((s.connect url).state.openFile 0 "/f").result = .ok 0 :=
    hok _ (by decide +kernel +zetaReduce)
  refine ⟨hparse, hconnect, ?_, ?_⟩
  · rw [← hplain]
    exact (h.alike "f/.//" "/f" (by decide +kernel)).1
  · rw [h.refused "./../secret" (by decide +kernel)]

end Export.State

end LockedCat
