import LockedCat.Proofs.Export.Holdings
import LockedCat.Proofs.Export.Paths

/-!
# Trees stay proper

Files are made in directories and under names that these can hold, and only files are taken away.
Main statement: whatever clients do to an export whose tree is proper, its tree is proper again.
-/

namespace LockedCat

namespace Tree

variable {t t' : Tree} {r : Route} {id : Nat}

theorem node?_added {added : List String} {n : Node} (h : t'.nodes = t.nodes ++ [(added, n)])
    (names : List String) :
    t'.node? names = (t.node? names).or (if added = names then some n else none) := by
  unfold node?
  rw [h, List.find?_append]
  by_cases hn : names.isEmpty
  · simp [hn]
  · by_cases ha : added = names
    · cases t.nodes.find? (·.1 = names) <;> simp [hn, ha]
    · cases t.nodes.find? (·.1 = names) <;> simp [hn, ha]

/-- A node that is added to a directory leaves a tree proper. -/
theorem Proper.added (hp : t.Proper) {added : List String} {n : Node}
    (h : t'.nodes = t.nodes ++ [(added, n)]) (hdir : t.node? added.dropLast = some .directory)
    (hshort : ∀ name ∈ added, name.utf8ByteSize ≤ nameLimit) : t'.Proper where
  parent names name m hm := by
    have hparent : t.node? names = some .directory := by
      rw [node?_added h] at hm
      cases hold : t.node? (names ++ [name]) with
      | some _ => exact hp.parent names name _ hold
      | none =>
          by_cases ha : added = names ++ [name]
          · rwa [ha, List.dropLast_concat] at hdir
          · simp [hold, ha] at hm
    rw [node?_added h, hparent]
    rfl
  short names m hm name hname := by
    rw [node?_added h] at hm
    cases hold : t.node? names with
    | some _ => exact hp.short names _ hold name hname
    | none =>
        by_cases ha : added = names
        · exact hshort name (ha ▸ hname)
        · simp [hold, ha] at hm

theorem Proper.setContents (hp : t.Proper) (id : Nat) (contents : Contents) :
    (t.setContents id contents).Proper := hp.congr rfl

theorem Proper.create (hp : t.Proper) (h : t.create r = .ok (id, t')) : t'.Proper := by
  unfold Tree.create at h
  split at h
  · cases h
  · rename_i p hplace
    obtain ⟨-, -, hdir, -⟩ := place_eq_ok hplace
    split at h
    · cases h
    · split at h
      · cases h
      · rename_i hlen
        split at h
        · cases h
        · cases h
          exact hp
        · cases h
          refine hp.added rfl ?_ ?_
          · rwa [Place.names, List.dropLast_concat]
          · intro name hname
            rcases List.mem_append.mp hname with hname | hname
            · exact hp.short _ _ hdir name hname
            · rw [List.mem_singleton.mp hname]
              omega

theorem Proper.put (hp : t.Proper) {contents : Contents} (h : t.put r contents = .ok t') :
    t'.Proper := by
  unfold Tree.put at h
  cases hc : t.create r with
  | error e => simp [hc, Except.map] at h
  | ok made =>
      simp only [hc, Except.map, Except.ok.injEq] at h
      rw [← h]
      exact (hp.create hc).setContents _ _

theorem node?_removed {gone names : List String} (h : t'.nodes = t.nodes.filter (·.1 ≠ gone))
    (hne : names ≠ gone) : t'.node? names = t.node? names := by
  have hsame : (fun x : List String × Node ↦ decide (decide (x.1 ≠ gone) = true ∧
      decide (x.1 = names) = true)) = fun x ↦ decide (x.1 = names) := by
    funext x
    by_cases hx : x.1 = names
    · simp [hx, hne]
    · simp [hx]
  unfold node?
  rw [h, List.find?_filter, hsame]

theorem node?_removed_self {gone : List String} (h : t'.nodes = t.nodes.filter (·.1 ≠ gone))
    (hne : gone ≠ []) : t'.node? gone = none := by
  unfold node?
  rw [h, List.find?_filter]
  simp [hne]

/-- Nothing lies in a file, so a tree stays proper without it. -/
theorem Proper.removed (hp : t.Proper) {gone : List String}
    (h : t'.nodes = t.nodes.filter (·.1 ≠ gone)) (hfile : t.node? gone = some (.file id)) :
    t'.Proper := by
  have hne : gone ≠ [] := by
    intro he
    rw [he] at hfile
    cases hfile
  have hkept {names : List String} {n : Node} (hn : t'.node? names = some n) :
      t.node? names = some n := by
    by_cases hg : names = gone
    · rw [hg, node?_removed_self h hne] at hn
      cases hn
    · rwa [node?_removed h hg] at hn
  refine ⟨fun names name n hn => ?_, fun names n hn => hp.short names n (hkept hn)⟩
  have hparent := hp.parent names name n (hkept hn)
  rw [node?_removed h, hparent]
  intro hg
  rw [← hg, hparent] at hfile
  cases hfile

theorem node?_of_place {p : Place} {n : Node} (hp : t.place r = .ok p) (h : t.lookup r = .ok n) :
    t.node? p.names = some n := by
  obtain ⟨hnames, hwalk, hdir, hdot, hdots⟩ := place_eq_ok hp
  unfold lookup at h
  rw [hnames, walk_append, hwalk] at h
  simp only [Except.bind, walk, hdir, if_neg hdot, if_neg hdots] at h
  split at h
  · cases h
  · rename_i there hthere
    split at hthere
    · cases hthere
    · split at hthere
      · cases hthere
      · cases hthere
        rw [Place.names]
        split at h
        · cases h
        · rename_i hn
          rw [hn]
          split at h
          · cases h
          · cases h
            rfl
        · rename_i hn
          cases h
          exact hn

theorem Proper.remove (hp : t.Proper) (h : t.remove r = .ok t') : t'.Proper := by
  unfold Tree.remove at h
  split at h
  · cases h
  · cases h
  · cases h
  · rename_i p id hplace hlookup
    cases h
    exact hp.removed rfl (node?_of_place hplace hlookup)

end Tree

namespace Export.State

variable {s : State}

/-! ## What leaves the nodes as they are -/

theorem nodes_setOption (s : State) (v : Nat) (d : Directive) :
    (s.setOption v d).state.tree.nodes = s.tree.nodes := by
  unfold setOption
  split
  · rfl
  · rename_i volume _
    simp only
    cases volume.option? d.key with
    | none => exact nodes_say ..
    | some old => exact (nodes_say ..).trans (nodes_say ..)

theorem tree_connect (s : State) (url : Locator) : (s.connect url).state.tree = s.tree := by
  rcases s.connect_eq url with ⟨c, he⟩ | ⟨-, -, ho⟩
  · rw [he]
  · rw [ho]

/-! ## Moves -/

theorem proper_setLogging (hp : s.tree.Proper) (v : Nat) (sink : String) (level : Level) :
    (s.setLogging v sink level).state.tree.Proper := by
  rcases s.setLogging_eq v sink level with ⟨c, he⟩ | ⟨x, log, s₁, -, ho, hs⟩
  · rw [he]
    exact hp
  · rw [hs]
    rcases openLog_eq_ok ho with ⟨-, rfl⟩ | ⟨r, id, tree, -, hc, -, rfl⟩
    · exact hp
    · exact hp.create hc

theorem proper_put (hp : s.tree.Proper) (path : String) (contents : Contents) :
    ((s.put path contents).toOption.getD s).tree.Proper := by
  unfold put
  split
  · exact hp
  · rename_i r _
    cases ht : s.tree.put r contents with
    | error e => exact hp
    | ok tree => exact hp.put ht

theorem proper_remove (hp : s.tree.Proper) (path : String) :
    ((s.remove path).toOption.getD s).tree.Proper := by
  unfold remove
  split
  · exact hp
  · rename_i r _
    cases ht : s.tree.remove r with
    | error e => exact hp
    | ok tree => exact hp.remove ht

theorem proper_step (hp : s.tree.Proper) (m : Move) : (s.step m).tree.Proper := by
  cases m with
  | connect url => exact hp.congr (congrArg Tree.nodes (s.tree_connect url))
  | setOption v d => exact hp.congr (s.nodes_setOption v d)
  | setLogging v sink level => exact proper_setLogging hp v sink level
  | openFile v path => exact hp.congr (s.still_openFile v path).nodes
  | lock f kind => exact hp.congr (s.still_lock f kind).nodes
  | read f size => exact hp.congr (s.still_read f size).nodes
  | close f => exact hp.congr (s.still_close f).nodes
  | drop f => exact hp
  | finish v => exact hp.congr (s.still_finish v).nodes
  | put path contents => exact proper_put hp path contents
  | remove path => exact proper_remove hp path

theorem proper_run (hp : s.tree.Proper) (ms : List Move) : (s.run ms).tree.Proper := by
  induction ms generalizing s with
  | nil => exact hp
  | cons m rest ih => exact ih (proper_step hp m)

theorem proper_performed (hp : s.tree.Proper) (deeds : List Deed) :
    (s.performed deeds).tree.Proper := by
  induction deeds generalizing s with
  | nil => exact hp
  | cons d rest ih =>
      obtain ⟨ms, hms, -⟩ := s.exists_run_eq_perform d
      have hd : (s.perform d).tree.Proper := by
        rw [hms]
        exact proper_run hp ms
      exact ih hd

end Export.State

end LockedCat
