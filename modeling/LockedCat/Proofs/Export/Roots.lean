import LockedCat.Proofs.BarePaths
import LockedCat.Proofs.Export.Resolution

/-!
# Paths that name the root

A text is taken for the path of a file if it begins with a slash and does not consist of slashes,
but a volume passes over dots as well. Main statement: such a path is refused or leads below the
directory of its volume exactly if one of its components is neither empty nor a dot; with dots alone
it names the directory itself.
-/

namespace LockedCat

theorem Text.exists_mem_fields {separator c : Char} {cs : List Char} (hm : c ∈ cs)
    (hc : c ≠ separator) : ∃ field ∈ fields separator cs, c ∈ field := by
  induction cs with
  | nil => cases hm
  | cons d cs ih =>
      rw [fields]
      by_cases hd : d = separator
      · obtain ⟨field, hf, hmem⟩ :=
          ih ((List.mem_cons.mp hm).resolve_left fun he => hc (he.trans hd))
        rw [if_pos hd]
        exact ⟨field, List.mem_cons_of_mem _ hf, hmem⟩
      · rw [if_neg hd]
        cases hfields : fields separator cs with
        | nil => exact absurd hfields (fields_ne_nil separator cs)
        | cons first rest =>
            rcases List.mem_cons.mp hm with rfl | hm
            · exact ⟨c :: first, List.mem_cons_self .., List.mem_cons_self ..⟩
            · obtain ⟨field, hf, hmem⟩ := ih hm
              rw [hfields] at hf
              rcases List.mem_cons.mp hf with rfl | hf
              · exact ⟨d :: field, List.mem_cons_self .., List.mem_cons_of_mem _ hmem⟩
              · exact ⟨field, List.mem_cons_of_mem _ hf, hmem⟩

namespace Path

variable {path : String}

theorem remaining_eq_nil_iff : remaining path = [] ↔ ∀ c ∈ components path, c = "" ∨ c = "." := by
  simp only [remaining, List.filter_eq_nil_iff, decide_eq_true_eq, Decidable.not_and_iff_not_or_not,
    Decidable.not_not]

theorem remaining_ne_nil_iff : remaining path ≠ [] ↔ ∃ c ∈ components path, c ≠ "" ∧ c ≠ "." := by
  rw [Ne, remaining_eq_nil_iff]
  simp

/-- A path that goes on is another path. -/
theorem Extends.ne_base {base : String} {names : List String} (h : Extends base names path)
    (hn : names ≠ []) : path ≠ base := by
  rintro rfl
  exact hn (List.self_eq_append_right.mp h.names)

theorem exists_component_of_namesFile (h : namesFile path.toList) :
    ∃ c ∈ components path, c ≠ "" := by
  obtain ⟨-, c, hm, hc⟩ := Locator.namesFile_iff.mp h
  obtain ⟨field, hf, hmem⟩ := Text.exists_mem_fields hm hc
  refine ⟨String.ofList field, List.mem_map_of_mem hf, fun he => ?_⟩
  rw [String.ofList_eq_empty_iff.mp he] at hmem
  cases hmem

end Path

theorem Locator.namesFile_of_parse {raw : String} {standard : UInt16} {u : Locator}
    (h : parse raw standard = .ok u) : namesFile u.path.toList := by
  obtain ⟨f, -, rfl⟩ := parse_eq_ok_iff.mp h
  rw [namesFile_iff, Form.locator, String.toList_ofList]
  exact ⟨f.path_absolute, f.path_names⟩

namespace Export.Volume

open LockedCat.Path (components remaining)

/-- A text that is taken for the path of a file, by itself or in a locator. -/
def TakenForFile (path : String) : Prop :=
  (∃ raw p, VolumePath.parse raw = .ok p ∧ p.text = path) ∨
    ∃ raw standard u, Locator.parse raw standard = .ok u ∧ u.path = path

theorem TakenForFile.namesFile {path : String} (h : TakenForFile path) :
    namesFile path.toList := by
  rcases h with ⟨raw, p, hp, rfl⟩ | ⟨raw, standard, u, hu, rfl⟩
  · obtain ⟨hn, rfl⟩ := VolumePath.parse_eq_ok_iff.mp hp
    exact hn
  · exact Locator.namesFile_of_parse hu

/-- The path is refused, or it leads from the directory of the volume to something in it. -/
def LeadsBelow (x : Volume) (path : String) : Prop :=
  x.resolve path = .error (.simple .permissionDenied) ∨
    ∃ names resolved, names ≠ [] ∧ x.resolve path = .ok resolved ∧
      Path.Extends x.brick names resolved ∧ resolved ≠ x.brick

variable (x : Volume) {path : String}

theorem resolve_eq_brick_iff :
    x.resolve path = .ok x.brick ↔ ∀ c ∈ components path, c = "" ∨ c = "." := by
  rw [← Path.remaining_eq_nil_iff]
  by_cases hdots : ".." ∈ components path
  · have hne : remaining path ≠ [] :=
      List.ne_nil_of_mem (Path.dots_mem_remaining.mpr hdots)
    rw [resolve_eq_denied_iff.mpr hdots]
    simp [hne]
  · obtain ⟨hr, he⟩ := x.resolve_extends hdots
    constructor
    · intro h
      refine Decidable.byContradiction fun hn => ?_
      rw [hr] at h
      exact he.ne_base hn (Except.ok.inj h)
    · intro hn
      rw [hr, hn, List.foldl_nil]

theorem leadsBelow_iff : x.LeadsBelow path ↔ ∃ c ∈ components path, c ≠ "" ∧ c ≠ "." := by
  rw [← Path.remaining_ne_nil_iff]
  constructor
  · rintro (hdenied | ⟨names, resolved, -, hr, -, hne⟩) hn
    · have hbrick := x.resolve_eq_brick_iff.mpr (Path.remaining_eq_nil_iff.mp hn)
      cases hdenied.symm.trans hbrick
    · have hbrick := x.resolve_eq_brick_iff.mpr (Path.remaining_eq_nil_iff.mp hn)
      cases hr.symm.trans hbrick
      exact hne rfl
  · intro hn
    by_cases hdots : ".." ∈ components path
    · exact .inl (resolve_eq_denied_iff.mpr hdots)
    · obtain ⟨hr, he⟩ := x.resolve_extends hdots
      exact .inr ⟨_, _, hn, hr, he, he.ne_base hn⟩

/-- What is taken for the path of a file leads below the directory of the volume, unless it is put
together from dots: only a dot among its components can make it a name of the directory. -/
theorem resolve_taken (h : TakenForFile path) :
    (x.LeadsBelow path ↔ ∃ c ∈ components path, c ≠ "" ∧ c ≠ ".") ∧
    (x.resolve path = .ok x.brick ↔ ∀ c ∈ components path, c = "" ∨ c = ".") ∧
    ("." ∉ components path → x.LeadsBelow path) := by
  refine ⟨x.leadsBelow_iff, x.resolve_eq_brick_iff, fun hdot => ?_⟩
  obtain ⟨c, hm, hc⟩ := Path.exists_component_of_namesFile h.namesFile
  exact x.leadsBelow_iff.mpr ⟨c, hm, hc, fun he => hdot (he ▸ hm)⟩

/-- Empty components and a dot are passed over on the way to a file. -/
theorem resolve_taken_spelled :
    let x : Volume := { brick := "/srv/v", name := "v" }
    VolumePath.parse "//./f/" = .ok ⟨"//./f/"⟩ ∧ x.LeadsBelow "//./f/" ∧
      (x.resolve "//./f/").toOption = some "/srv/v/f" := by
  intro x
  have hp : VolumePath.parse "//./f/" = .ok ⟨"//./f/"⟩ := rfl
  obtain ⟨hbelow, -, -⟩ := x.resolve_taken (.inl ⟨_, _, hp, rfl⟩)
  exact ⟨hp, hbelow.mpr ⟨"f", by decide +kernel, by decide, by decide⟩, by decide +kernel⟩

/-- A dot after the slash is taken for a file in both ways, and it is the directory of the
volume. -/
theorem resolve_taken_dot :
    VolumePath.parse "/." = .ok ⟨"/."⟩ ∧
      Locator.parse "glfs://h/v/." 24007 = .ok ⟨"h", "v", "/.", 24007⟩ ∧
      (∀ x : Volume, x.resolve "/." = .ok x.brick) ∧
      ¬∀ (x : Volume) (path : String), TakenForFile path → x.LeadsBelow path := by
  have hp : VolumePath.parse "/." = .ok ⟨"/."⟩ := rfl
  refine ⟨hp, rfl, fun x => rfl, fun h => ?_⟩
  obtain ⟨c, hm, hempty, hdot⟩ :=
    (leadsBelow_iff _).mp (h { brick := "/srv/v", name := "v" } "/." (.inl ⟨_, _, hp, rfl⟩))
  have hc : components "/." = ["", "."] := by decide +kernel
  simp [hc, hempty, hdot] at hm

end Export.Volume

end LockedCat
