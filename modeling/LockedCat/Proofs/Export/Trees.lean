import LockedCat.Export.Tree

/-!
# Changes of a file tree

A file keeps its identity for good, whatever becomes of its names. Main statement: each change of a
tree spares the files that it does not write to, and a file that is made is none of those before.
-/

namespace LockedCat

namespace Tree

variable {t t' t₁ : Tree} {r : Route} {id : Nat}

/-- Every file that has a name exists. -/
def Grounded (t : Tree) : Prop := ∀ names id, (names, .file id) ∈ t.nodes → id < t.files.length

theorem walk_append (t : Tree) (here xs ys : List String) :
    t.walk here (xs ++ ys) = (t.walk here xs).bind (t.walk · ys) := by
  induction xs generalizing here with
  | nil => rfl
  | cons name rest ih =>
      simp only [List.cons_append, walk]
      repeat' split
      all_goals first | rfl | exact ih _

theorem mem_nodes_of_node? {names : List String} (h : t.node? names = some (.file id)) :
    ∃ names, (names, .file id) ∈ t.nodes := by
  unfold node? at h
  split at h
  · cases h
  · obtain ⟨⟨names', n⟩, hfind, hn⟩ := Option.map_eq_some_iff.mp h
    cases hn
    exact ⟨names', List.mem_of_find?_eq_some hfind⟩

theorem mem_nodes_of_lookup (h : t.lookup r = .ok (.file id)) :
    ∃ names, (names, .file id) ∈ t.nodes := by
  unfold lookup at h
  split at h
  · cases h
  · split at h
    · cases h
    · rename_i hn
      split at h
      · cases h
      · cases h
        exact mem_nodes_of_node? hn
    · cases h

theorem place_eq_ok {p : Place} (h : t.place r = .ok p) :
    r.names = r.names.dropLast ++ [p.name] ∧ t.walk [] r.names.dropLast = .ok p.directory ∧
      t.node? p.directory = some .directory ∧ p.name ≠ "." ∧ p.name ≠ ".." := by
  unfold place at h
  cases hlast : r.names.getLast? with
  | none => simp [hlast] at h
  | some name =>
      obtain ⟨init, hinit⟩ := List.getLast?_eq_some_iff.mp hlast
      simp only [hlast] at h
      split at h
      · cases h
      · rename_i directory hwalk
        split at h
        · cases h
        · cases h
        · rename_i hdir
          split at h
          · cases h
          · rename_i hdots
            cases h
            rw [not_or] at hdots
            exact ⟨by simp [hinit], hwalk, hdir, hdots.1, hdots.2⟩

/-- A place that holds a file is where a look-up along the same route ends. -/
theorem lookup_of_place {p : Place} (hp : t.place r = .ok p) (hr : r.endsInSlash = false)
    (hl : ¬nameLimit < p.name.utf8ByteSize) (hn : t.node? p.names = some (.file id)) :
    t.lookup r = .ok (.file id) := by
  obtain ⟨hnames, hwalk, hdir, hdot, hdots⟩ := place_eq_ok hp
  unfold Place.names at hn
  have hstep : t.walk [] r.names = .ok (p.directory ++ [p.name]) := by
    rw [hnames, walk_append, hwalk]
    simp only [Except.bind, walk, hdir, hn, if_neg hdot, if_neg hdots, if_neg hl]
    rfl
  simp [lookup, hstep, hn, hr]

/-- A file that is opened for writing was there before or is new. -/
theorem create_eq_ok (h : t.create r = .ok (id, t')) :
    t.lookup r = .ok (.file id) ∧ t' = t ∨
      id = t.files.length ∧ ∃ names, t' =
        { nodes := t.nodes ++ [(names, .file t.files.length)], files := t.files ++ [#[]] } := by
  unfold create at h
  split at h
  · cases h
  · rename_i p hp
    split at h
    · cases h
    · rename_i hr
      split at h
      · cases h
      · rename_i hl
        split at h
        · cases h
        · rename_i hn
          cases h
          exact .inl ⟨lookup_of_place hp (by simpa using hr) hl hn, rfl⟩
        · cases h
          exact .inr ⟨rfl, p.names, rfl⟩

/-- A file that was just made holds nothing, as one that there is not. -/
theorem contents_create (h : t.create r = .ok (id, t')) (id' : Nat) :
    t'.contents id' = t.contents id' := by
  rcases create_eq_ok h with ⟨-, rfl⟩ | ⟨-, names, rfl⟩
  · rfl
  · unfold contents
    rcases Nat.lt_trichotomy id' t.files.length with hlt | rfl | hgt
    · rw [List.getElem?_append_left hlt]
    · simp
    · rw [List.getElem?_eq_none (by simp; omega), List.getElem?_eq_none (by omega)]

theorem files_remove (h : t.remove r = .ok t') : t'.files = t.files := by
  unfold remove at h
  split at h
  · cases h
  · cases h
  · cases h
  · cases h
    rfl

theorem length_setContents (t : Tree) (id : Nat) (c : Contents) :
    (t.setContents id c).files.length = t.files.length := by
  simp [setContents]

theorem contents_setContents_of_ne (t : Tree) {id id' : Nat} (c : Contents) (h : id' ≠ id) :
    (t.setContents id c).contents id' = t.contents id' := by
  simp [setContents, contents, Ne.symm h]

/-! ## What a change spares -/

/-- The second tree came out of the first by changes after which the files that are to be kept
hold what they held. No file ever goes away. -/
structure Spares (keep : Nat → Prop) (t t' : Tree) : Prop where
  grounded : t.Grounded → t'.Grounded
  length_le : t.files.length ≤ t'.files.length
  contents : ∀ id < t.files.length, keep id → t'.contents id = t.contents id

namespace Spares

variable {keep : Nat → Prop}

theorem refl (t : Tree) : Spares keep t t := ⟨id, Nat.le_refl _, fun _ _ _ => rfl⟩

theorem trans (h : Spares keep t t₁) (h' : Spares keep t₁ t') : Spares keep t t' where
  grounded hg := h'.grounded (h.grounded hg)
  length_le := Nat.le_trans h.length_le h'.length_le
  contents id hid hk := by
    rw [h'.contents id (Nat.lt_of_lt_of_le hid h.length_le) hk, h.contents id hid hk]

theorem mono {keep' : Nat → Prop} (h : Spares keep t t') (hk : ∀ id, keep' id → keep id) :
    Spares keep' t t' :=
  ⟨h.grounded, h.length_le, fun id hid hkeep => h.contents id hid (hk id hkeep)⟩

theorem setContents (t : Tree) {id : Nat} (c : Contents)
    (hk : id < t.files.length → ¬keep id) : Spares keep t (t.setContents id c) where
  grounded hg names id' hm := by
    rw [length_setContents]
    exact hg names id' hm
  length_le := Nat.le_of_eq (length_setContents t id c).symm
  contents id' hid hkeep := by
    apply contents_setContents_of_ne
    intro he
    subst he
    exact hk hid hkeep

theorem create (h : t.create r = .ok (id, t')) : Spares keep t t' := by
  rcases create_eq_ok h with ⟨-, rfl⟩ | ⟨-, names, rfl⟩
  · exact .refl _
  · refine ⟨fun hg names' id' hm => ?_, by simp, fun id' hid _ => ?_⟩
    · rw [List.mem_append] at hm
      simp only [List.length_append, List.length_singleton]
      rcases hm with hm | hm
      · have := hg names' id' hm
        omega
      · simp only [List.mem_singleton, Prod.mk.injEq, Node.file.injEq] at hm
        omega
    · simp [Tree.contents, List.getElem?_append_left hid]

/-- A direct write spares all files but the one it writes. -/
theorem put {c : Contents} (h : t.put r c = .ok t')
    (hk : ∀ id, t.lookup r = .ok (.file id) → ¬keep id) : Spares keep t t' := by
  unfold Tree.put at h
  cases hc : t.create r with
  | error e => simp [hc, Except.map] at h
  | ok made =>
      obtain ⟨id, t₁⟩ := made
      simp only [hc, Except.map, Except.ok.injEq] at h
      subst h
      have hmade : Spares keep t t₁ := .create hc
      rcases create_eq_ok hc with ⟨hl, rfl⟩ | ⟨rfl, names, rfl⟩
      · exact .setContents _ _ fun _ => hk id hl
      · refine ⟨fun hg names' id' hm => ?_, ?_, fun id' hid hkeep => ?_⟩
        · rw [length_setContents]
          exact hmade.grounded hg names' id' hm
        · rw [length_setContents]
          exact hmade.length_le
        · rw [contents_setContents_of_ne _ _ (Nat.ne_of_lt hid)]
          exact hmade.contents id' hid hkeep

theorem remove (h : t.remove r = .ok t') : Spares keep t t' := by
  unfold Tree.remove at h
  split at h
  · cases h
  · cases h
  · cases h
  · cases h
    exact ⟨fun hg names id hm => hg names id (List.mem_filter.mp hm).1, Nat.le_refl _,
      fun _ _ _ => rfl⟩

end Spares

end Tree

end LockedCat
