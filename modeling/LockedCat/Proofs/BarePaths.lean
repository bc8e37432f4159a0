import LockedCat.Proofs.LocatorForms
import LockedCat.VolumePath

/-!
# Bare paths

A file is named by a locator, or by its path alone once there is a session. Main statement: of the
texts that begin with a slash, both ways take the same ones and mean the same by them, but for a
path with a line break in it: that is a bare path, and no locator ends in it.
-/

namespace LockedCat

theorem VolumePath.parse_eq_ok_iff {raw : String} {path : VolumePath} :
    parse raw = .ok path ↔ namesFile raw.toList ∧ path = ⟨raw⟩ := by
  unfold parse
  by_cases h : namesFile raw.toList
  · simp [h, eq_comm]
  · simp [h]

namespace Locator

/-- What stands before the path in a written locator. -/
structure Stem where
  scheme : Scheme
  host : HostForm
  port : Option PortForm
  volume : List Char
  volume_nonempty : volume ≠ []
  volume_free : '/' ∉ volume

namespace Stem

variable (b : Stem) (path : String) (standard : UInt16)

def chars : List Char :=
  b.scheme.chars ++ (b.host.chars ++ (Form.portChars b.port ++ '/' :: b.volume))

/-- The text of a locator with this path. -/
def text : String := String.ofList b.chars ++ path

/-- The locator with this path. -/
def locator : Locator where
  host := String.ofList b.host.chars
  volume := String.ofList b.volume
  path := path
  port := (b.port.map PortForm.number).getD standard

variable {path}

theorem split?_text (h : path.toList.head? = some '/') :
    split? (b.text path).toList =
      if '\n' ∈ path.toList then none
      else some ⟨b.host.chars, b.port.map PortForm.chars, b.volume, path.toList⟩ := by
  rw [← split?_append b.scheme b.host b.port b.volume_nonempty b.volume_free h]
  simp [text, chars]

theorem read_text (h : path.toList.head? = some '/') :
    read (b.text path) standard =
      if '\n' ∈ path.toList then .error .form
      else if namesFile path.toList then .ok (b.locator path standard)
      else .error (.missingPath (String.ofList b.volume)) := by
  unfold read
  rw [b.split?_text h]
  by_cases hline : '\n' ∈ path.toList
  · rw [if_pos hline, if_pos hline]
  · rw [if_neg hline, if_neg hline]
    by_cases hnames : namesFile path.toList
    · cases hport : b.port with
      | none => simp [hnames, locator, hport]
      | some q => simp [hnames, locator, hport, q.reads]
    · simp [hnames]

theorem parse_text (h : path.toList.head? = some '/') :
    parse (b.text path) standard =
      if '\n' ∈ path.toList then
        .error ⟨.parse, b.text path, { root := Complaint.form.message }⟩
      else if namesFile path.toList then .ok (b.locator path standard)
      else .error ⟨.parse, b.text path,
        { root := (Complaint.missingPath (String.ofList b.volume)).message }⟩ := by
  rw [parse, b.read_text standard h]
  split
  · rfl
  · split <;> rfl

/-- Without a line break in it, a path can be named in both ways or in neither, and then it is the
same path. -/
theorem parse_text_iff (b : Stem) (path : String) (standard : UInt16) :
    (path.toList.head? = some '/' ∧ (∃ u, parse (b.text path) standard = .ok u) ↔
      (∃ p, VolumePath.parse path = .ok p) ∧ '\n' ∉ path.toList) ∧
    (∀ u, path.toList.head? = some '/' → parse (b.text path) standard = .ok u →
      u.path = path ∧ VolumePath.parse path = .ok ⟨u.path⟩) ∧
    (∀ p, VolumePath.parse path = .ok p → p.text = path ∧
      ('\n' ∉ path.toList → parse (b.text path) standard = .ok (b.locator path standard)) ∧
      ('\n' ∈ path.toList → ∃ e, parse (b.text path) standard = .error e ∧
        e.kind = .parse ∧ e.subject = b.text path)) := by
  have hroot (hnames : namesFile path.toList) : path.toList.head? = some '/' :=
    (namesFile_iff.mp hnames).1
  have hbare : (∃ p, VolumePath.parse path = .ok p) ↔ namesFile path.toList := by
    simp [VolumePath.parse_eq_ok_iff]
  have hlocated (hslash : path.toList.head? = some '/') {u : Locator}
      (h : parse (b.text path) standard = .ok u) :
      '\n' ∉ path.toList ∧ namesFile path.toList ∧ u = b.locator path standard := by
    rw [b.parse_text standard hslash] at h
    split at h
    · cases h
    · rename_i hline
      split at h
      · rename_i hnames
        cases h
        exact ⟨hline, hnames, rfl⟩
      · cases h
  refine ⟨?_, fun u hslash h => ?_, fun p hp => ?_⟩
  · rw [hbare]
    constructor
    · rintro ⟨hslash, u, h⟩
      obtain ⟨hline, hnames, -⟩ := hlocated hslash h
      exact ⟨hnames, hline⟩
    · rintro ⟨hnames, hline⟩
      have hslash := hroot hnames
      exact ⟨hslash, _, by rw [b.parse_text standard hslash, if_neg hline, if_pos hnames]⟩
  · obtain ⟨-, hnames, rfl⟩ := hlocated hslash h
    exact ⟨rfl, VolumePath.parse_eq_ok_iff.mpr ⟨hnames, rfl⟩⟩
  · obtain ⟨hnames, rfl⟩ := VolumePath.parse_eq_ok_iff.mp hp
    refine ⟨rfl, fun hline => ?_, fun hline => ?_⟩
    · rw [b.parse_text standard (hroot hnames), if_neg hline, if_pos hnames]
    · exact ⟨_, by rw [b.parse_text standard (hroot hnames), if_pos hline], rfl, rfl⟩

/-- The file of a name with a line break can be named by its path alone. -/
theorem parse_text_line_break :
    let b : Stem := ⟨.glfs, .name ['h'] (by simp) (by simp), none, ['v'], by simp, by simp⟩
    b.text "/a\nb" = "glfs://h/v/a\nb" ∧
      ¬((∃ p, VolumePath.parse "/a\nb" = .ok p) ↔
        "/a\nb".toList.head? = some '/' ∧
          ∃ u, parse "glfs://h/v/a\nb" Port.standard = .ok u) := by
  intro b
  have htext : b.text "/a\nb" = "glfs://h/v/a\nb" := rfl
  have hslash : "/a\nb".toList.head? = some '/' := by decide
  have hrefused := b.parse_text Port.standard hslash
  rw [htext, if_pos (by decide)] at hrefused
  refine ⟨htext, fun h => ?_⟩
  obtain ⟨-, u, hu⟩ := h.mp ⟨⟨"/a\nb"⟩, rfl⟩
  rw [hrefused] at hu
  cases hu

end Stem

end Locator

end LockedCat
