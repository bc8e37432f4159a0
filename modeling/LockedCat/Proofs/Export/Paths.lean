import LockedCat.Export.Path
import LockedCat.Export.Volume
import LockedCat.Proofs.Export.Trees

/-!
# Canonical paths

A path with nothing in it to resolve: a slash before each name, and names that stand for
themselves. Main statement: in a tree whose nodes lie in directories, such a path leads to a file
exactly if the file is under these names.
-/

namespace LockedCat

/-! ## Fields of a text that was put together -/

theorem Text.fields_append {separator : Char} {cs rest first : List Char}
    {more : List (List Char)} (h : separator ∉ cs)
    (hr : fields separator rest = first :: more) :
    fields separator (cs ++ rest) = (cs ++ first) :: more := by
  induction cs with
  | nil => exact hr
  | cons c cs ih =>
      rw [List.mem_cons, not_or] at h
      rw [List.cons_append, fields, if_neg (Ne.symm h.1), ih h.2]
      rfl

namespace Path

/-- A name that a directory can hold and that a path takes for what it says. -/
structure Name where
  text : String
  nonempty : text ≠ ""
  ordinary : text ≠ "." ∧ text ≠ ".."
  separate : '/' ∉ text.toList

/-- A text as a name, if it can be one. -/
def Name.of? (text : String) : Option Name :=
  if h : text ≠ "" ∧ (text ≠ "." ∧ text ≠ "..") ∧ '/' ∉ text.toList then
    some ⟨text, h.1, h.2.1, h.2.2⟩
  else none

theorem Name.of?_text (name : Name) : of? name.text = some name :=
  dif_pos ⟨name.nonempty, name.ordinary, name.separate⟩

/-- The text of names. -/
def texts (names : List Name) : List String := names.map Name.text

theorem mapM_of?_texts (names : List Name) : (texts names).mapM Name.of? = some names := by
  induction names with
  | nil => rfl
  | cons name rest ih =>
      have ih : (rest.map Name.text).mapM Name.of? = some rest := ih
      simp [texts, List.mapM_cons, Name.of?_text, ih]

/-- The path that is a slash before each name. -/
def canonical (names : List Name) : String :=
  String.ofList (names.flatMap fun name => '/' :: name.text.toList)

theorem fields_canonical (names : List Name) :
    Text.fields '/' (canonical names).toList = [] :: names.map (·.text.toList) := by
  rw [canonical, String.toList_ofList]
  induction names with
  | nil => rfl
  | cons name rest ih =>
      rw [List.flatMap_cons, List.cons_append, Text.fields, if_pos rfl,
        Text.fields_append name.separate ih, List.append_nil]
      rfl

theorem names_ofChars_canonical (names : List Name) :
    (Route.ofChars (canonical names).toList).names = texts names := by
  have hfilter : (names.map (·.text.toList)).filter (!·.isEmpty) = names.map (·.text.toList) := by
    rw [List.filter_eq_self]
    intro cs hcs
    obtain ⟨name, -, rfl⟩ := List.mem_map.mp hcs
    simpa using name.nonempty
  rw [Route.ofChars, fields_canonical, List.filter_cons_of_neg (by simp), hfilter, List.map_map]
  exact List.map_congr_left fun name _ => String.ofList_toList

/-- A canonical path says which names it was made of, and nothing else matters to it. -/
theorem canonical_inj {names names' : List Name} :
    canonical names = canonical names' ↔ texts names = texts names' := by
  constructor
  · intro h
    rw [← names_ofChars_canonical, h, names_ofChars_canonical]
  · intro h
    have htexts (names : List Name) :
        canonical names = String.ofList ((texts names).flatMap fun text => '/' :: text.toList) := by
      rw [canonical, texts, List.flatMap_map]
    rw [htexts, h, ← htexts]

end Path

theorem Export.Volume.names_canonical (names : List Path.Name) :
    Volume.names (Path.canonical names) = .ok (Path.texts names) := by
  have hdot : (Path.texts names).filter (· ≠ ".") = Path.texts names := by
    rw [List.filter_eq_self]
    intro text htext
    obtain ⟨name, -, rfl⟩ := List.mem_map.mp htext
    simpa using name.ordinary.1
  have hdots : ".." ∉ Path.texts names := by
    intro hmem
    obtain ⟨name, -, he⟩ := List.mem_map.mp hmem
    exact name.ordinary.2 he
  rw [Volume.names, Path.names_ofChars_canonical]
  simp only [hdot, if_neg hdots]

namespace Tree

variable {t : Tree} {id : Nat}

/-- Every node lies in a directory and has a name that a directory can hold. -/
structure Proper (t : Tree) : Prop where
  parent : ∀ names name n, t.node? (names ++ [name]) = some n → t.node? names = some .directory
  short : ∀ names n, t.node? names = some n → ∀ name ∈ names, name.utf8ByteSize ≤ nameLimit

theorem mem_nodes {names : List String} {n : Node} (hne : names ≠ [])
    (hn : t.node? names = some n) : (names, n) ∈ t.nodes := by
  unfold node? at hn
  rw [if_neg (by simpa using hne), Option.map_eq_some_iff] at hn
  obtain ⟨⟨names', n'⟩, hfind, rfl⟩ := hn
  have hnames : names' = names := by simpa using List.find?_some hfind
  rw [← hnames]
  exact List.mem_of_find?_eq_some hfind

/-- What there is to check of a tree is finite. -/
theorem Proper.of_nodes
    (h : ∀ x ∈ t.nodes, t.node? x.1.dropLast = some .directory ∧
      ∀ name ∈ x.1, name.utf8ByteSize ≤ nameLimit) : t.Proper where
  parent names name n hn := by
    have := (h _ (mem_nodes (by simp) hn)).1
    rwa [List.dropLast_concat] at this
  short names n hn name hname := (h _ (mem_nodes (List.ne_nil_of_mem hname) hn)).2 name hname

theorem node?_congr {t t' : Tree} (h : t'.nodes = t.nodes) (names : List String) :
    t'.node? names = t.node? names := by
  unfold node?
  rw [h]

theorem Proper.congr {t t' : Tree} (hp : t.Proper) (h : t'.nodes = t.nodes) : t'.Proper where
  parent names name n hn := by
    rw [node?_congr h] at hn ⊢
    exact hp.parent names name n hn
  short names n hn := by
    rw [node?_congr h] at hn
    exact hp.short names n hn

theorem Proper.directory (h : t.Proper) {xs ys : List String} {n : Node} (hy : ys ≠ [])
    (hn : t.node? (xs ++ ys) = some n) : t.node? xs = some .directory := by
  induction ys generalizing xs with
  | nil => exact absurd rfl hy
  | cons y rest ih =>
      rw [List.append_cons] at hn
      by_cases hr : rest = []
      · rw [hr, List.append_nil] at hn
        exact h.parent xs y n hn
      · exact h.parent xs y .directory (ih hr hn)

theorem walk_texts {here there : List String} {names : List Path.Name}
    (h : t.walk here (Path.texts names) = .ok there) : there = here ++ Path.texts names := by
  induction names generalizing here with
  | nil =>
      cases h
      exact (List.append_nil _).symm
  | cons name rest ih =>
      simp only [Path.texts, List.map_cons, walk, if_neg name.ordinary.1,
        if_neg name.ordinary.2] at h
      split at h
      · cases h
      · cases h
      · split at h
        · cases h
        · split at h
          · cases h
          · rw [ih h, List.append_assoc]
            rfl

theorem Proper.walk (h : t.Proper) {here : List String} {names : List Path.Name} {n : Node}
    (hn : t.node? (here ++ Path.texts names) = some n) :
    t.walk here (Path.texts names) = .ok (here ++ Path.texts names) := by
  induction names generalizing here with
  | nil => exact congrArg Except.ok (List.append_nil here).symm
  | cons name rest ih =>
      have hcons : here ++ Path.texts (name :: rest) = here ++ [name.text] ++ Path.texts rest :=
        List.append_cons ..
      have hdir : t.node? here = some .directory := h.directory (List.cons_ne_nil _ _) hn
      have hlen : ¬nameLimit < name.text.utf8ByteSize := by
        have := h.short _ n hn name.text (by simp [Path.texts])
        omega
      rw [hcons] at hn ⊢
      have hnext : (t.node? (here ++ [name.text])).isNone = false := by
        by_cases hr : Path.texts rest = []
        · rw [hr, List.append_nil] at hn
          rw [hn]
          rfl
        · rw [h.directory hr hn]
          rfl
      rw [← ih hn]
      simp only [Path.texts, List.map_cons, Tree.walk, hdir, if_neg name.ordinary.1,
        if_neg name.ordinary.2, if_neg hlen, hnext, Bool.false_eq_true, if_false]

/-- Names that stand for themselves lead to what is under them. -/
theorem Proper.lookup (h : t.Proper) {names : List Path.Name} {n : Node}
    (hn : t.node? (Path.texts names) = some n) :
    t.lookup { names := Path.texts names } = .ok n := by
  have hwalk : t.walk [] (Path.texts names) = .ok (Path.texts names) :=
    h.walk (show t.node? ([] ++ Path.texts names) = some n from hn)
  unfold Tree.lookup
  simp only [hwalk, hn]
  cases n <;> rfl

theorem node?_of_lookup {names : List Path.Name}
    (h : t.lookup { names := Path.texts names } = .ok (.file id)) :
    t.node? (Path.texts names) = some (.file id) := by
  unfold Tree.lookup at h
  split at h
  · cases h
  · rename_i there hwalk
    have hthere : there = Path.texts names := walk_texts hwalk
    subst hthere
    split at h
    · cases h
    · rename_i hn
      split at h
      · cases h
      · cases h
        exact hn
    · cases h

end Tree

end LockedCat
