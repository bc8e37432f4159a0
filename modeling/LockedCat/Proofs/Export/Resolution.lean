import LockedCat.Proofs.Export.Paths

/-!
# Resolution of paths

What a volume makes of a path before anything is looked up. The texts between the slashes are
taken one after the other: two dots are refused, an empty text and a dot lead nowhere, and
anything else is a name that the path of the volume's directory goes on with.
-/

namespace LockedCat

/-! ## Fields and routes -/

theorem Text.fields_append_separator (separator : Char) (cs rest : List Char) :
    fields separator (cs ++ separator :: rest) =
      fields separator cs ++ fields separator rest := by
  induction cs with
  | nil => simp [fields]
  | cons c cs ih =>
      rw [List.cons_append, fields, fields, ih]
      by_cases hc : c = separator
      · simp only [if_pos hc, List.cons_append]
      · cases hf : fields separator cs with
        | nil => exact absurd hf (fields_ne_nil separator cs)
        | cons first more => simp only [if_neg hc, List.cons_append]

theorem Text.not_mem_of_mem_fields {separator : Char} {cs field : List Char}
    (h : field ∈ fields separator cs) : separator ∉ field := by
  induction cs generalizing field with
  | nil =>
      rw [fields, List.mem_singleton] at h
      rw [h]
      exact List.not_mem_nil
  | cons c cs ih =>
      rw [fields] at h
      by_cases hc : c = separator
      · rw [if_pos hc, List.mem_cons] at h
        rcases h with rfl | h
        · exact List.not_mem_nil
        · exact ih h
      · rw [if_neg hc] at h
        cases hf : fields separator cs with
        | nil => exact absurd hf (fields_ne_nil separator cs)
        | cons first more =>
            rw [hf] at ih h
            rcases List.mem_cons.mp h with rfl | h
            · rw [List.mem_cons, not_or]
              exact ⟨Ne.symm hc, ih (List.mem_cons_self ..)⟩
            · exact ih (List.mem_cons_of_mem _ h)

theorem Route.names_ofChars_append (cs rest : List Char) :
    (ofChars (cs ++ '/' :: rest)).names = (ofChars cs).names ++ (ofChars rest).names := by
  simp only [ofChars, Text.fields_append_separator, List.filter_append, List.map_append]

theorem Route.names_ofChars_name (name : Path.Name) :
    (ofChars name.text.toList).names = [name.text] := by
  have hfields : Text.fields '/' name.text.toList = [name.text.toList] := by
    have := Text.fields_append name.separate (show Text.fields '/' [] = [] :: [] from rfl)
    rwa [List.append_nil] at this
  simp [ofChars, hfields, name.nonempty]

namespace Path

/-! ## Components -/

/-- The texts between the slashes of a path. -/
def components (path : String) : List String :=
  (Text.fields '/' path.toList).map String.ofList

/-- The components that lead from one directory to another node, in order. -/
def remaining (path : String) : List String :=
  (components path).filter fun component => component ≠ "" ∧ component ≠ "."

theorem remaining_eq (path : String) :
    remaining path = (Route.ofChars path.toList).names.filter (· ≠ ".") := by
  rw [remaining, components, Route.ofChars, List.filter_map, List.filter_map, List.filter_filter]
  refine congrArg _ (List.filter_congr fun field _ => ?_)
  have hempty : String.ofList field = "" ↔ field = [] := String.ofList_eq_empty_iff
  by_cases h : field = [] <;> simp [hempty, h]

theorem dots_mem_remaining {path : String} :
    ".." ∈ remaining path ↔ ".." ∈ components path := by
  rw [remaining, List.mem_filter]
  exact and_iff_left (by decide)

/-- Components without two dots among them are names once those that lead nowhere are left out. -/
theorem exists_texts_eq_remaining {path : String} (h : ".." ∉ components path) :
    ∃ names : List Name, texts names = remaining path := by
  have hname : ∀ text ∈ remaining path, ∃ name : Name, name.text = text := by
    intro text htext
    have hdots : text ≠ ".." := by
      rintro rfl
      exact h (dots_mem_remaining.mp htext)
    obtain ⟨hmem, hkept⟩ := List.mem_filter.mp htext
    obtain ⟨hempty, hdot⟩ := of_decide_eq_true hkept
    obtain ⟨field, hfield, rfl⟩ := List.mem_map.mp hmem
    have hslash : '/' ∉ (String.ofList field).toList := by
      rw [String.toList_ofList]
      exact Text.not_mem_of_mem_fields hfield
    exact ⟨⟨String.ofList field, hempty, ⟨hdot, hdots⟩, hslash⟩, rfl⟩
  generalize remaining path = rest at hname
  induction rest with
  | nil => exact ⟨[], rfl⟩
  | cons text rest ih =>
      obtain ⟨name, rfl⟩ := hname text (List.mem_cons_self ..)
      obtain ⟨names, rfl⟩ := ih fun text h => hname text (List.mem_cons_of_mem _ h)
      exact ⟨name :: names, rfl⟩

/-! ## Paths that go on -/

/-- A path that begins like another and goes on with these names. -/
structure Extends (base : String) (names : List String) (path : String) : Prop where
  lead : base.toList <+: path.toList
  names : (Route.ofChars path.toList).names = (Route.ofChars base.toList).names ++ names

theorem Extends.refl (base : String) : Extends base [] base :=
  ⟨List.prefix_rfl, (List.append_nil _).symm⟩

theorem Extends.trans {base middle path : String} {names more : List String}
    (h : Extends base names middle) (h' : Extends middle more path) :
    Extends base (names ++ more) path where
  lead := h.lead.trans h'.lead
  names := by rw [h'.names, h.names, List.append_assoc]

theorem extends_join (base : String) (name : Name) :
    Extends base [name.text] (join base name.text) := by
  have hname := Route.names_ofChars_name name
  have hhead : name.text.toList.head? ≠ some '/' :=
    fun hc => name.separate (List.mem_of_head? hc)
  unfold join
  split
  · rename_i hc
    exact absurd hc hhead
  · rename_i hlast _
    have hbase : base.toList = [] := List.getLast?_eq_none_iff.mp hlast
    refine ⟨by rw [hbase]; exact List.nil_prefix, ?_⟩
    rw [hname, hbase]
    rfl
  · rename_i hlast _
    obtain ⟨front, hfront⟩ := List.getLast?_eq_some_iff.mp hlast
    refine ⟨by rw [String.toList_append]; exact List.prefix_append .., ?_⟩
    have hnone : (Route.ofChars []).names = [] := rfl
    rw [String.toList_append, hfront, List.append_assoc, List.singleton_append,
      Route.names_ofChars_append, Route.names_ofChars_append, hname, hnone, List.append_nil]
  · have htext : (base ++ "/" ++ name.text).toList = base.toList ++ '/' :: name.text.toList := by
      simp [String.toList_append]
    refine ⟨by rw [htext]; exact List.prefix_append .., ?_⟩
    rw [htext, Route.names_ofChars_append, hname]

theorem extends_foldl_join (base : String) (names : List Name) :
    Extends base (texts names) ((texts names).foldl join base) := by
  induction names generalizing base with
  | nil => exact .refl base
  | cons name rest ih => exact (extends_join base name).trans (ih (join base name.text))

end Path

/-! ## Resolution -/

namespace Export.Volume

open LockedCat.Path (components remaining)

theorem names_eq (path : String) :
    names path =
      if ".." ∈ components path then .error (.simple .permissionDenied)
      else .ok (remaining path) := by
  simp only [names, ← Path.remaining_eq, Path.dots_mem_remaining]

/-- The path that the operating system is asked for when a file of the volume is opened. -/
def resolve (x : Volume) (path : String) : Except IoError String :=
  (names path).map (·.foldl Path.join x.brick)

theorem resolve_eq (x : Volume) (path : String) :
    x.resolve path =
      if ".." ∈ components path then .error (.simple .permissionDenied)
      else .ok ((remaining path).foldl Path.join x.brick) := by
  rw [resolve, names_eq]
  by_cases h : ".." ∈ components path
  · rw [if_pos h, if_pos h]
    rfl
  · rw [if_neg h, if_neg h]
    rfl

theorem resolve_eq_denied_iff {x : Volume} {path : String} :
    x.resolve path = .error (.simple .permissionDenied) ↔ ".." ∈ components path := by
  rw [resolve_eq]
  by_cases h : ".." ∈ components path <;> simp [h]

theorem resolve_extends (x : Volume) {path : String} (h : ".." ∉ components path) :
    x.resolve path = .ok ((remaining path).foldl Path.join x.brick) ∧
      Path.Extends x.brick (remaining path) ((remaining path).foldl Path.join x.brick) := by
  obtain ⟨names, hnames⟩ := Path.exists_texts_eq_remaining h
  have hextends := Path.extends_foldl_join x.brick names
  rw [hnames] at hextends
  rw [resolve_eq, if_neg h]
  exact ⟨rfl, hextends⟩

end Export.Volume

end LockedCat
