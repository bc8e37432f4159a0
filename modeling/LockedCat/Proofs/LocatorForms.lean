import LockedCat.Locator

/-!
# Written locators

The grammar of locators, each form with the conditions under which it is one. Main statement: a
text is read as a locator exactly when it is the text of a form, of one form only, and what is
read is what the form says. Every other text is refused under its own name.
-/

namespace LockedCat

theorem Text.dropLead?_eq_some_iff {lead cs rest : List Char} :
    dropLead? lead cs = some rest ↔ cs = lead ++ rest := by
  unfold dropLead?
  constructor
  · intro h
    split at h
    · rename_i hl
      obtain ⟨tail, rfl⟩ := List.isPrefixOf_iff_prefix.mp hl
      simpa using h
    · cases h
  · rintro rfl
    simp

namespace Locator

/-! ## Forms -/

inductive Scheme where
  | glfs
  | gluster
deriving DecidableEq, Repr

def Scheme.chars : Scheme → List Char
  | glfs => "glfs://".toList
  | gluster => "gluster://".toList

/-- A host as it is written: a name, or anything in square brackets. -/
inductive HostForm where
  | name (chars : List Char) (nonempty : chars ≠ [])
      (free : ∀ c ∈ chars, c ≠ ':' ∧ c ≠ '/' ∧ c ≠ '[' ∧ c ≠ ']')
  | bracketed (inner : List Char) (nonempty : inner ≠ []) (free : ∀ c ∈ inner, c ≠ ']' ∧ c ≠ '/')

/-- The host with its brackets. -/
def HostForm.chars : HostForm → List Char
  | name chars _ _ => chars
  | bracketed inner _ _ => '[' :: inner ++ [']']

/-- The host without its brackets. -/
def HostForm.bare : HostForm → List Char
  | name chars _ _ => chars
  | bracketed inner _ _ => inner

/-- A port as it is written, and its number. -/
structure PortForm where
  chars : List Char
  number : UInt16
  free : '/' ∉ chars
  reads : Port.ofChars? chars = some number

/-- A locator as it is written. -/
structure Form where
  scheme : Scheme
  host : HostForm
  port : Option PortForm
  volume : List Char
  path : List Char
  volume_nonempty : volume ≠ []
  volume_free : '/' ∉ volume
  path_absolute : path.head? = some '/'
  path_names : ∃ c ∈ path, c ≠ '/'
  path_free : '\n' ∉ path

namespace Form

/-- What stands between the host and the slash before the volume. -/
def portChars : Option PortForm → List Char
  | none => []
  | some q => ':' :: q.chars

def chars (f : Form) : List Char :=
  f.scheme.chars ++ (f.host.chars ++ (portChars f.port ++ '/' :: (f.volume ++ f.path)))

/-- What a form says; `standard` is the port of one that has none. -/
def locator (f : Form) (standard : UInt16) : Locator where
  host := String.ofList f.host.chars
  volume := String.ofList f.volume
  path := String.ofList f.path
  port := match f.port with
    | none => standard
    | some q => q.number

end Form

/-! ## Splitting -/

theorem afterScheme?_eq_some_iff {cs rest : List Char} :
    afterScheme? cs = some rest ↔ ∃ s : Scheme, cs = s.chars ++ rest := by
  unfold afterScheme?
  constructor
  · intro h
    split at h
    · rename_i hl
      cases h
      exact ⟨.glfs, Text.dropLead?_eq_some_iff.mp hl⟩
    · exact ⟨.gluster, Text.dropLead?_eq_some_iff.mp h⟩
  · rintro ⟨s | s, rfl⟩
    · have hown : Text.dropLead? "glfs://".toList (Scheme.glfs.chars ++ rest) = some rest :=
        Text.dropLead?_eq_some_iff.mpr rfl
      rw [hown]
    · -- The two schemes differ in their second letter but one.
      have hother : Text.dropLead? "glfs://".toList (Scheme.gluster.chars ++ rest) = none := rfl
      rw [hother]
      exact Text.dropLead?_eq_some_iff.mpr rfl

/-- A stretch ends where the first character outside of it stands. -/
theorem takeWhile_dropWhile_append {p : Char → Bool} (cs rest : List Char)
    (hcs : ∀ c ∈ cs, p c) (hrest : ∀ c ∈ rest.head?, p c = false) :
    (cs ++ rest).takeWhile p = cs ∧ (cs ++ rest).dropWhile p = rest := by
  have htail : rest.takeWhile p = [] ∧ rest.dropWhile p = rest := by
    cases rest with
    | nil => exact ⟨rfl, rfl⟩
    | cons c tail => simp [hrest c rfl]
  rw [List.takeWhile_append_of_pos hcs, List.dropWhile_append_of_pos hcs, htail.1, htail.2]
  simp

theorem forall_takeWhile (p : Char → Bool) (cs : List Char) : ∀ c ∈ cs.takeWhile p, p c :=
  List.all_eq_true.mp (List.all_takeWhile)

theorem isHostChar_iff {c : Char} :
    isHostChar c ↔ c ≠ ':' ∧ c ≠ '/' ∧ c ≠ '[' ∧ c ≠ ']' := by
  simp [isHostChar, and_assoc]

theorem isBracketedChar_iff {c : Char} : isBracketedChar c ↔ c ≠ ']' ∧ c ≠ '/' := by
  simp [isBracketedChar]

theorem exists_form_of_splitHost? {cs host rest : List Char}
    (h : splitHost? cs = some (host, rest)) :
    ∃ f : HostForm, host = f.chars ∧ cs = f.chars ++ rest := by
  unfold splitHost? at h
  split at h
  · rename_i after
    split at h
    · rename_i c inner tail ht hd
      cases h
      have hfree := forall_takeWhile isBracketedChar after
      rw [ht] at hfree
      refine ⟨.bracketed (c :: inner) (List.cons_ne_nil _ _)
        fun x hx => isBracketedChar_iff.mp (hfree x hx), rfl, ?_⟩
      have hsplit := List.takeWhile_append_dropWhile (p := isBracketedChar) (l := after)
      rw [ht, hd] at hsplit
      simp [HostForm.chars, ← hsplit]
    · cases h
  · split at h
    · cases h
    · rename_i hne
      cases h
      have hfree := forall_takeWhile isHostChar cs
      exact ⟨.name (cs.takeWhile isHostChar) hne fun x hx => isHostChar_iff.mp (hfree x hx), rfl,
        List.takeWhile_append_dropWhile.symm⟩

theorem HostForm.splitHost?_chars (f : HostForm) (rest : List Char)
    (hrest : ∀ c ∈ rest.head?, c = ':' ∨ c = '/') :
    splitHost? (f.chars ++ rest) = some (f.chars, rest) := by
  cases f with
  | name chars nonempty free =>
      obtain ⟨ht, hd⟩ := takeWhile_dropWhile_append (p := isHostChar) chars rest
        (fun c hc => isHostChar_iff.mpr (free c hc)) fun c hc => by
          rcases hrest c hc with rfl | rfl <;> rfl
      cases chars with
      | nil => exact absurd rfl nonempty
      | cons c tail =>
          have hc : c ≠ '[' := (free c (List.mem_cons_self ..)).2.2.1
          rw [HostForm.chars, splitHost?, ht, hd]
          intro after heq
          exact hc (List.cons.inj heq).1
  | bracketed inner nonempty free =>
      obtain ⟨ht, hd⟩ := takeWhile_dropWhile_append (p := isBracketedChar) inner (']' :: rest)
        (fun c hc => isBracketedChar_iff.mpr (free c hc)) fun c hc => by
          cases hc
          rfl
      cases inner with
      | nil => exact absurd rfl nonempty
      | cons c tail =>
          have hlist : HostForm.chars (.bracketed (c :: tail) nonempty free) ++ rest =
              '[' :: (c :: tail ++ ']' :: rest) := by
            simp [HostForm.chars]
          rw [hlist, splitHost?, ht, hd]
          rfl

theorem exists_form_of_splitPort? {cs rest : List Char} {port : Option (List Char)}
    (h : splitPort? cs = some (port, rest)) :
    port = none ∧ cs = '/' :: rest ∨
      ∃ chars, port = some chars ∧ '/' ∉ chars ∧ cs = ':' :: (chars ++ '/' :: rest) := by
  unfold splitPort? at h
  split at h
  · cases h
    exact .inl ⟨rfl, rfl⟩
  · rename_i after
    split at h
    · rename_i c tail hd
      cases h
      have hc : c = '/' := by
        have hhead := List.head?_dropWhile_not (· ≠ '/') after
        rw [hd] at hhead
        simpa using hhead
      have hsplit := List.takeWhile_append_dropWhile (p := (· ≠ '/')) (l := after)
      rw [hd, hc] at hsplit
      refine .inr ⟨_, rfl, fun hm => ?_, by rw [hsplit]⟩
      simpa using forall_takeWhile (· ≠ '/') after '/' hm
    · cases h
  · cases h

theorem splitPort?_portChars (port : Option PortForm) (rest : List Char) :
    splitPort? (Form.portChars port ++ '/' :: rest) = some (port.map PortForm.chars, rest) := by
  cases port with
  | none => rfl
  | some q =>
      obtain ⟨ht, hd⟩ := takeWhile_dropWhile_append (p := (· ≠ '/')) q.chars ('/' :: rest)
        (fun c hc => by simpa using fun he : c = '/' => q.free (he ▸ hc)) fun c hc => by
          cases hc
          rfl
      simp only [Form.portChars, List.cons_append, splitPort?, ht, hd, Option.map_some]

/-- The parts that a text is made of are found again, unless the path has a line break in it. -/
theorem split?_append (scheme : Scheme) (host : HostForm) (port : Option PortForm)
    {volume path : List Char} (hne : volume ≠ []) (hfree : '/' ∉ volume)
    (hroot : path.head? = some '/') :
    split? (scheme.chars ++ (host.chars ++ (Form.portChars port ++ '/' :: (volume ++ path)))) =
      if '\n' ∈ path then none
      else some ⟨host.chars, port.map PortForm.chars, volume, path⟩ := by
  have hafter : afterScheme? (scheme.chars ++
      (host.chars ++ (Form.portChars port ++ '/' :: (volume ++ path)))) =
      some (host.chars ++ (Form.portChars port ++ '/' :: (volume ++ path))) :=
    afterScheme?_eq_some_iff.mpr ⟨scheme, rfl⟩
  have hhost := host.splitHost?_chars (Form.portChars port ++ '/' :: (volume ++ path))
    fun c hc => by
      cases port <;> cases hc
      · exact .inr rfl
      · exact .inl rfl
  obtain ⟨hvolume, hpath⟩ := takeWhile_dropWhile_append (p := (· ≠ '/')) volume path
    (fun c hc => by simpa using fun he : c = '/' => hfree (he ▸ hc)) fun c hc => by
      rw [hroot] at hc
      cases hc
      rfl
  have hempty : volume.isEmpty = false := List.isEmpty_eq_false_iff.mpr hne
  simp only [split?, hafter, hhost, splitPort?_portChars, hvolume, hpath, hempty,
    Option.bind_eq_bind, Option.bind_some, Bool.false_or, List.contains_iff_mem]

theorem Form.split?_chars (f : Form) :
    split? f.chars = some ⟨f.host.chars, f.port.map PortForm.chars, f.volume, f.path⟩ := by
  rw [chars, split?_append f.scheme f.host f.port f.volume_nonempty f.volume_free f.path_absolute,
    if_neg f.path_free]

/-- The parts of a text are those of a form, but for what the port and the path must be. -/
theorem split?_eq_some {cs : List Char} {parts : Parts} (h : split? cs = some parts) :
    ∃ (scheme : Scheme) (host : HostForm), host.chars = parts.host ∧
      (∀ q ∈ parts.port, '/' ∉ q) ∧ parts.volume ≠ [] ∧ '/' ∉ parts.volume ∧
      '\n' ∉ parts.path ∧
      cs = scheme.chars ++ (parts.host ++ ((parts.port.elim [] (':' :: ·)) ++
        '/' :: (parts.volume ++ parts.path))) := by
  simp only [split?, Option.bind_eq_bind, Option.bind_eq_some_iff, Prod.exists] at h
  obtain ⟨rest, hafter, host, rest₁, hhost, port, rest₂, hport, h⟩ := h
  obtain ⟨scheme, rfl⟩ := afterScheme?_eq_some_iff.mp hafter
  obtain ⟨f, rfl, rfl⟩ := exists_form_of_splitHost? hhost
  split at h
  · cases h
  · rename_i hparts
    cases h
    simp only [Bool.or_eq_true, List.isEmpty_iff, List.contains_iff_mem, not_or] at hparts
    have hvolume : '/' ∉ rest₂.takeWhile (· ≠ '/') := fun hm => by
      simpa using forall_takeWhile (· ≠ '/') rest₂ '/' hm
    refine ⟨scheme, f, rfl, fun q hq => ?_, hparts.1, hvolume, hparts.2, ?_⟩
    · rcases exists_form_of_splitPort? hport with ⟨rfl, -⟩ | ⟨chars, rfl, hfree, -⟩
      · cases hq
      · cases hq
        exact hfree
    · rcases exists_form_of_splitPort? hport with ⟨rfl, rfl⟩ | ⟨chars, rfl, -, rfl⟩
      · simp
      · simp

/-! ## Reading -/

theorem namesFile_iff {path : List Char} :
    namesFile path ↔ path.head? = some '/' ∧ ∃ c ∈ path, c ≠ '/' := by
  simp [namesFile]

theorem Form.read_chars (f : Form) {raw : String} (h : f.chars = raw.toList) (standard : UInt16) :
    read raw standard = .ok (f.locator standard) := by
  have hnames : namesFile f.path := namesFile_iff.mpr ⟨f.path_absolute, f.path_names⟩
  unfold read
  rw [← h, f.split?_chars]
  cases hport : f.port with
  | none => simp [hnames, Form.locator, hport]
  | some q => simp [hnames, Form.locator, hport, q.reads]

theorem exists_form_of_read {raw : String} {standard : UInt16} {u : Locator}
    (h : read raw standard = .ok u) :
    ∃ f : Form, f.chars = raw.toList ∧ u = f.locator standard := by
  unfold read at h
  split at h
  · cases h
  · rename_i parts hparts
    obtain ⟨scheme, host, hhost, hq, hne, hfree, hline, hraw⟩ := split?_eq_some hparts
    split at h
    · cases h
    · rename_i hnames
      obtain ⟨hroot, hfile⟩ := namesFile_iff.mp (by simpa using hnames)
      split at h
      · rename_i hport
        cases h
        refine ⟨⟨scheme, host, none, parts.volume, parts.path, hne, hfree, hroot, hfile, hline⟩,
          ?_, ?_⟩
        · rw [hraw, hport, Form.chars, hhost]
          rfl
        · simp [Form.locator, hhost]
      · rename_i q hport
        split at h
        · rename_i number hnumber
          cases h
          refine ⟨⟨scheme, host, some ⟨q, number, hq q hport, hnumber⟩, parts.volume, parts.path,
            hne, hfree, hroot, hfile, hline⟩, ?_, ?_⟩
          · rw [hraw, hport, Form.chars, hhost]
            rfl
          · simp [Form.locator, hhost]
        · cases h

/-! ## One form for a text -/

theorem HostForm.chars_injective {f g : HostForm} (h : f.chars = g.chars) : f = g := by
  -- A name never begins with a bracket.
  have hhead {chars : List Char} {inner : List Char}
      (free : ∀ c ∈ chars, c ≠ ':' ∧ c ≠ '/' ∧ c ≠ '[' ∧ c ≠ ']')
      (he : chars = '[' :: inner) : False :=
    (free '[' (by simp [he])).2.2.1 rfl
  cases f with
  | name chars _ free =>
      cases g with
      | name => cases h; rfl
      | bracketed inner => exact (hhead free h).elim
  | bracketed inner =>
      cases g with
      | name chars _ free => exact (hhead free h.symm).elim
      | bracketed => simpa [HostForm.chars] using h

theorem PortForm.chars_injective {p q : PortForm} (h : p.chars = q.chars) : p = q := by
  have hnumber : some p.number = some q.number := by rw [← p.reads, ← q.reads, h]
  cases p
  cases q
  cases h
  cases hnumber
  rfl

theorem Form.chars_injective {f g : Form} (h : f.chars = g.chars) : f = g := by
  have hparts := f.split?_chars
  rw [h, g.split?_chars] at hparts
  simp only [Option.some.injEq, Parts.mk.injEq] at hparts
  obtain ⟨hhost, hport, hvolume, hpath⟩ := hparts
  have hhost := HostForm.chars_injective hhost
  have hport := Option.map_injective (fun _ _ => PortForm.chars_injective) hport
  have hscheme : f.scheme = g.scheme := by
    have hall : f.scheme.chars = g.scheme.chars := by
      rw [Form.chars, Form.chars, hhost, hport, hvolume, hpath] at h
      exact List.append_cancel_right h
    cases hf : f.scheme <;> cases hg : g.scheme <;> rw [hf, hg] at hall
    · cases hall
    · cases hall
  cases f
  cases g
  cases hscheme
  cases hhost
  cases hport
  cases hvolume
  cases hpath
  rfl

theorem Form.lookupHost_locator (f : Form) (standard : UInt16) :
    (f.locator standard).lookupHost = String.ofList f.host.bare := by
  unfold lookupHost Form.locator
  cases f.host with
  | name chars nonempty free =>
      simp only [HostForm.chars, String.toList_ofList]
      split
      · exact absurd rfl (free '[' (List.mem_cons_self ..)).2.2.1
      · rfl
  | bracketed inner nonempty free => simp [HostForm.chars, HostForm.bare]

theorem parse_eq_ok_iff {raw : String} {standard : UInt16} {u : Locator} :
    parse raw standard = .ok u ↔ ∃ f : Form, f.chars = raw.toList ∧ u = f.locator standard := by
  constructor
  · intro h
    cases hr : read raw standard with
    | error c =>
        rw [parse, hr] at h
        cases h
    | ok u' =>
        rw [parse, hr] at h
        cases h
        exact exists_form_of_read hr
  · rintro ⟨f, hf, rfl⟩
    rw [parse, f.read_chars hf]
    rfl

theorem parse_error {raw : String} {standard : UInt16} {e : Error}
    (h : parse raw standard = .error e) : e.kind = .parse ∧ e.subject = raw := by
  cases hr : read raw standard with
  | ok u =>
      rw [parse, hr] at h
      cases h
  | error c =>
      rw [parse, hr] at h
      cases h
      exact ⟨rfl, rfl⟩

/-- A text is a locator exactly if it is the text of a form. -/
theorem parse_forms (raw : String) (standard : UInt16) :
    (∀ u, parse raw standard = .ok u ↔
      ∃ f : Form, f.chars = raw.toList ∧ u = f.locator standard) ∧
    (∀ f g : Form, f.chars = raw.toList → g.chars = raw.toList → f = g) ∧
    (∀ f : Form, (f.locator standard).lookupHost = String.ofList f.host.bare) ∧
    ((¬∃ f : Form, f.chars = raw.toList) →
      ∃ e, parse raw standard = .error e ∧ e.kind = .parse ∧ e.subject = raw) := by
  refine ⟨fun u => parse_eq_ok_iff, fun f g hf hg => Form.chars_injective (hf.trans hg.symm),
    fun f => f.lookupHost_locator standard, fun hno => ?_⟩
  cases hp : parse raw standard with
  | error e => exact ⟨e, rfl, parse_error hp⟩
  | ok u =>
      obtain ⟨f, hf, -⟩ := parse_eq_ok_iff.mp hp
      exact absurd ⟨f, hf⟩ hno

end Locator

end LockedCat
