import LockedCat.Proofs.LocatorForms
import LockedCat.Proofs.Ports

/-!
# Displayed locators

A locator is displayed by putting its parts one after the other, whatever stands in them. Main
statement: the text reads back as the locator exactly if each part is one that a locator can have
and the port is not 0, so that no two locators which were read are displayed alike.
-/

namespace LockedCat.Locator

/-! ## Well-formed locators -/

/-- A host as it is written: anything in square brackets, or a name. -/
inductive IsHost : List Char → Prop where
  | bracketed {inner} : inner ≠ [] → (∀ c ∈ inner, c ≠ ']' ∧ c ≠ '/') →
      IsHost ('[' :: inner ++ [']'])
  | name {chars} : chars ≠ [] → (∀ c ∈ chars, c ≠ ':' ∧ c ≠ '/' ∧ c ≠ '[' ∧ c ≠ ']') →
      IsHost chars

/-- Every part of the locator is one that can be written. -/
structure WellFormed (u : Locator) : Prop where
  host : IsHost u.host.toList
  volume_nonempty : u.volume ≠ ""
  volume_free : '/' ∉ u.volume.toList
  path_absolute : u.path.toList.head? = some '/'
  path_names : ∃ c ∈ u.path.toList, c ≠ '/'
  path_free : '\n' ∉ u.path.toList
  port : u.port ≠ 0

theorem isHost_iff {cs : List Char} : IsHost cs ↔ ∃ f : HostForm, f.chars = cs := by
  constructor
  · intro h
    cases h with
    | bracketed hne hfree => exact ⟨.bracketed _ hne hfree, rfl⟩
    | name hne hfree => exact ⟨.name _ hne hfree, rfl⟩
  · rintro ⟨f, rfl⟩
    cases f with
    | bracketed inner hne hfree => exact .bracketed hne hfree
    | name chars hne hfree => exact .name hne hfree

/-! ## The displayed text -/

theorem toList_display (u : Locator) :
    u.display.toList = Scheme.glfs.chars ++ (u.host.toList ++
      ((':' :: Port.decimal u.port.toNat) ++ '/' :: (u.volume.toList ++ u.path.toList))) := by
  have hcolon : ":".toList = [':'] := rfl
  have hslash : "/".toList = ['/'] := rfl
  have hscheme : Scheme.glfs.chars = "glfs://".toList := rfl
  rw [display, hscheme]
  simp only [String.toList_append, hcolon, hslash, Port.decimal]
  simp only [List.append_assoc, List.cons_append, List.nil_append]

/-- A port that is not 0, in decimal. -/
def PortForm.decimal (port : UInt16) (h : port ≠ 0) : PortForm where
  chars := Port.decimal port.toNat
  number := port
  free hm := by
    have hdigit : '/'.isDigit := Port.isDigit_of_mem_decimal hm
    cases hdigit
  reads := by rw [Port.ofChars?_decimal, if_neg h]

/-- A well-formed locator is displayed as one of its forms. -/
theorem WellFormed.exists_form {u : Locator} (h : u.WellFormed) :
    ∃ f : Form, f.chars = u.display.toList ∧ ∀ standard, f.locator standard = u := by
  obtain ⟨host, hhost⟩ := isHost_iff.mp h.host
  have hvolume : u.volume.toList ≠ [] := by
    intro hnil
    exact h.volume_nonempty (String.toList_inj.mp hnil)
  refine ⟨⟨.glfs, host, some (.decimal u.port h.port), u.volume.toList, u.path.toList, hvolume,
    h.volume_free, h.path_absolute, h.path_names, h.path_free⟩, ?_, ?_⟩
  · rw [toList_display, ← hhost]
    rfl
  · intro standard
    simp only [Form.locator, hhost, String.ofList_toList]
    rfl

/-- What a form says is well-formed, but for the port that a form without one is given. -/
theorem Form.wellFormed {f : Form} {standard : UInt16} (h : (f.locator standard).port ≠ 0) :
    (f.locator standard).WellFormed where
  host := by
    rw [Form.locator, String.toList_ofList]
    exact isHost_iff.mpr ⟨f.host, rfl⟩
  volume_nonempty := by
    intro hempty
    apply f.volume_nonempty
    rw [← String.toList_ofList (l := f.volume)]
    exact congrArg String.toList hempty
  volume_free := by simpa [Form.locator] using f.volume_free
  path_absolute := by simpa [Form.locator] using f.path_absolute
  path_names := by simpa [Form.locator] using f.path_names
  path_free := by simpa [Form.locator] using f.path_free
  port := h

theorem wellFormed_of_parse {raw : String} {standard : UInt16} {u : Locator}
    (h : parse raw standard = .ok u) (hs : standard ≠ 0) : u.WellFormed := by
  obtain ⟨f, -, rfl⟩ := parse_eq_ok_iff.mp h
  apply Form.wellFormed
  unfold Form.locator
  cases f.port with
  | none => exact hs
  | some q => exact Port.ofChars?_ne_zero q.reads

/-- A displayed locator has a port, so what it reads back as has that port. -/
theorem Form.port_ne_none {f : Form} {u : Locator} (h : f.chars = u.display.toList)
    (hhost : f.host.chars = u.host.toList) : f.port ≠ none := by
  intro hnone
  rw [toList_display, Form.chars, hhost, hnone] at h
  cases hs : f.scheme with
  | glfs =>
      rw [hs] at h
      have htail := List.append_cancel_left (List.append_cancel_left h)
      cases htail
  | gluster =>
      rw [hs] at h
      cases h

theorem parse_display_iff {u : Locator} {standard : UInt16} :
    parse u.display standard = .ok u ↔ u.WellFormed := by
  constructor
  · intro h
    obtain ⟨f, hf, hu⟩ := parse_eq_ok_iff.mp h
    have hhost : f.host.chars = u.host.toList := by
      rw [hu, Form.locator, String.toList_ofList]
    have hport : u.port ≠ 0 := by
      rw [hu, Form.locator]
      cases hq : f.port with
      | none => exact absurd hq (Form.port_ne_none hf hhost)
      | some q => exact Port.ofChars?_ne_zero q.reads
    rw [hu] at hport ⊢
    exact Form.wellFormed hport
  · intro h
    obtain ⟨f, hf, hu⟩ := h.exists_form
    exact parse_eq_ok_iff.mpr ⟨f, hf, (hu standard).symm⟩

/-- Exactly the well-formed locators read back from their display. Those that were read from any
text, and given a port that is not 0 where the text had none, are among them: they read back
whatever the port of a locator without one is then, and their displays tell them apart. -/
theorem display_roundtrip (u : Locator) :
    (∀ standard, parse u.display standard = .ok u ↔ u.WellFormed) ∧
    ∀ raw standard, standard ≠ 0 → parse raw standard = .ok u →
      (∀ standard', parse u.display standard' = .ok u) ∧
      ∀ u' raw' standard', standard' ≠ 0 → parse raw' standard' = .ok u' →
        u.display = u'.display → u = u' := by
  refine ⟨fun standard => parse_display_iff, fun raw standard hs hraw => ⟨?_, ?_⟩⟩
  · intro standard'
    exact parse_display_iff.mpr (wellFormed_of_parse hraw hs)
  · intro u' raw' standard' hs' hraw' hdisplay
    have hback : parse u.display standard = .ok u :=
      parse_display_iff.mpr (wellFormed_of_parse hraw hs)
    have hback' : parse u'.display standard = .ok u' :=
      parse_display_iff.mpr (wellFormed_of_parse hraw' hs')
    rw [hdisplay, hback'] at hback
    exact (Except.ok.inj hback).symm

end LockedCat.Locator
