import LockedCat.Directive

/-!
# Written directives

Which texts are directives and what they say, and how a directive is kept: its key as it was
written, with the place of the point between translator and setting in it. Main statement: a text is
read as a directive exactly when it is one, in one way only, it is shown as it was written, and both
parts of its key are cut out of the key between characters.
-/

namespace LockedCat.Directive

/-! ## Splitting -/

section Split

variable {sign : Char} {cs before after : List Char}

/-- A text is split at the first sign in it. -/
theorem splitAt?_eq_some_iff :
    splitAt? sign cs = some (before, after) ↔ cs = before ++ sign :: after ∧ sign ∉ before := by
  unfold splitAt?
  constructor
  · intro h
    split at h
    · cases h
    · rename_i c tail hd
      cases h
      have hc : c = sign := by
        have hhead := List.head?_dropWhile_not (· ≠ sign) cs
        rw [hd] at hhead
        simpa using hhead
      have hall := List.takeWhile_append_dropWhile (p := (· ≠ sign)) (l := cs)
      rw [hd, hc] at hall
      refine ⟨hall.symm, fun hm => ?_⟩
      have hfree := List.all_eq_true.mp (List.all_takeWhile (p := (· ≠ sign)) (l := cs)) sign hm
      simp at hfree
  · rintro ⟨rfl, hfree⟩
    have hpos : ∀ c ∈ before, decide (c ≠ sign) = true := fun c hc =>
      decide_eq_true fun he => hfree (he ▸ hc)
    rw [List.takeWhile_append_of_pos hpos, List.dropWhile_append_of_pos hpos]
    simp

theorem splitAt?_eq_none_iff : splitAt? sign cs = none ↔ sign ∉ cs := by
  constructor
  · intro h hm
    obtain ⟨before, after, hcs, hfree⟩ := List.eq_append_cons_of_mem hm
    rw [splitAt?_eq_some_iff.mpr ⟨hcs, hfree⟩] at h
    cases h
  · intro hno
    cases h : splitAt? sign cs with
    | none => rfl
    | some parts =>
        obtain ⟨hcs, -⟩ := splitAt?_eq_some_iff.mp h
        exact absurd (by simp [hcs]) hno

end Split

/-! ## Reading -/

/-- The parts of a directive are such that it can be told from its text where they end. -/
structure Proper (d : Directive) : Prop where
  xlator_nonempty : d.xlator ≠ ""
  xlator_free : '.' ∉ d.xlator.toList ∧ '=' ∉ d.xlator.toList
  setting_nonempty : d.setting ≠ ""
  setting_free : '=' ∉ d.setting.toList

/-- The text is what the directive is written like. -/
def Spells (raw : String) (d : Directive) : Prop :=
  d.Proper ∧ raw = d.xlator ++ "." ++ d.setting ++ "=" ++ d.value

theorem toList_key (d : Directive) : d.key.toList = d.xlator.toList ++ '.' :: d.setting.toList := by
  simp [key]

theorem toList_display (d : Directive) :
    d.display.toList = d.key.toList ++ '=' :: d.value.toList := by
  simp [display]

theorem Proper.splitAt?_display {d : Directive} (h : d.Proper) :
    splitAt? '=' d.display.toList = some (d.key.toList, d.value.toList) := by
  refine splitAt?_eq_some_iff.mpr ⟨d.toList_display, ?_⟩
  simp [toList_key, h.xlator_free.2, h.setting_free]

theorem splitAt?_key {d : Directive} (h : '.' ∉ d.xlator.toList) :
    splitAt? '.' d.key.toList = some (d.xlator.toList, d.setting.toList) :=
  splitAt?_eq_some_iff.mpr ⟨d.toList_key, h⟩

theorem read_eq_ok_iff {raw : List Char} {d : Directive} :
    read raw = .ok d ↔ d.Proper ∧ d.display.toList = raw := by
  constructor
  · intro h
    unfold read at h
    split at h
    · cases h
    · rename_i key value hkey
      obtain ⟨rfl, hfree⟩ := splitAt?_eq_some_iff.mp hkey
      split at h
      · cases h
      · rename_i xlator setting hdot
        obtain ⟨rfl, hpoint⟩ := splitAt?_eq_some_iff.mp hdot
        split at h
        · cases h
        · rename_i hnonempty
          cases h
          simp only [Bool.or_eq_true, List.isEmpty_iff, not_or] at hnonempty
          simp only [List.mem_append, List.mem_cons, not_or] at hfree
          refine ⟨⟨?_, ?_, ?_, ?_⟩, by simp [toList_display, toList_key]⟩
          · simpa [← String.toList_inj] using hnonempty.1
          · simpa using ⟨hpoint, hfree.1⟩
          · simpa [← String.toList_inj] using hnonempty.2
          · simpa using hfree.2.2
  · rintro ⟨h, rfl⟩
    have hempty : (d.xlator.toList.isEmpty || d.setting.toList.isEmpty) = false := by
      simp [h.xlator_nonempty, h.setting_nonempty]
    simp only [read, h.splitAt?_display, splitAt?_key h.xlator_free.1, hempty, Bool.false_eq_true,
      if_false, String.ofList_toList]

theorem parse_eq_ok_iff {raw : String} {d : Directive} : parse raw = .ok d ↔ Spells raw d := by
  have hspells : Spells raw d ↔ d.Proper ∧ d.display.toList = raw.toList := by
    rw [String.toList_inj, Spells, display, key, eq_comm (a := raw)]
  rw [hspells, ← read_eq_ok_iff]
  cases hr : read raw.toList with
  | error c =>
      rw [parse, hr]
      exact ⟨nofun, nofun⟩
  | ok d' =>
      rw [parse, hr]
      constructor <;> rintro ⟨⟩ <;> rfl

/-- A directive is displayed as it was written. -/
theorem display_of_parse {raw : String} {d : Directive} (h : parse raw = .ok d) :
    d.display = raw :=
  (parse_eq_ok_iff.mp h).2.symm

theorem parse_error {raw : String} {e : Error} (h : parse raw = .error e) :
    e.kind = .parse ∧ e.subject = raw := by
  cases hr : read raw.toList with
  | ok d =>
      rw [parse, hr] at h
      cases h
  | error c =>
      rw [parse, hr] at h
      cases h
      exact ⟨rfl, rfl⟩

/-! ## Keeping -/

/-- The place where a sign first stands in a text, in bytes. -/
def place? (sign : Char) (text : String) : Option Nat :=
  (text.find? sign).map (·.offset.byteIdx)

/-- What stands before and after a place in a text, in bytes. There is no place within a character
or beyond the end. -/
def cut? (text : String) (place : Nat) : Option (String × String) :=
  if h : String.Pos.Raw.IsValid text ⟨place⟩ then
    some ((text.sliceTo ⟨⟨place⟩, h⟩).copy, (text.sliceFrom ⟨⟨place⟩, h⟩).copy)
  else none

/-- A directive as it is kept. -/
structure Kept where
  key : String
  value : String
  /-- The place of the point between translator and setting in the key, in bytes. -/
  point : Nat
deriving DecidableEq, Repr

namespace Kept

def xlator? (k : Kept) : Option String := (cut? k.key k.point).map Prod.fst

def setting? (k : Kept) : Option String := (cut? k.key (k.point + 1)).map Prod.snd

def display (k : Kept) : String := k.key ++ "=" ++ k.value

/-- Reads a directive without taking its key apart. -/
def read (raw : List Char) : Except Complaint Kept :=
  match splitAt? '=' raw with
  | none => .error (.missing '=')
  | some (key, value) =>
      match place? '.' (String.ofList key) with
      | none => .error (.missing '.')
      | some point =>
          if point = 0 || point + 1 = (String.ofList key).utf8ByteSize then .error .empty
          else .ok ⟨String.ofList key, String.ofList value, point⟩

def parse (raw : String) : Except Error Kept :=
  (read raw.toList).mapError fun c => ⟨.parse, raw, { root := c.message }⟩

end Kept

/-- What is kept of a directive. -/
def keep (d : Directive) : Kept := ⟨d.key, d.value, d.xlator.utf8ByteSize⟩

theorem isValid_append (s t : String) : String.Pos.Raw.IsValid (s ++ t) ⟨s.utf8ByteSize⟩ :=
  String.Pos.Raw.isValid_iff_exists_append.mpr ⟨s, t, rfl, rfl⟩

theorem cut?_append (s t : String) : cut? (s ++ t) s.utf8ByteSize = some (s, t) := by
  have hsplits : String.Pos.Splits (s := s ++ t) ⟨⟨s.utf8ByteSize⟩, isValid_append s t⟩ s t :=
    ⟨rfl, rfl⟩
  rw [cut?, dif_pos (isValid_append s t), hsplits.copy_sliceTo_eq, hsplits.copy_sliceFrom_eq]

section Keep

variable (d : Directive)

theorem key_eq_before : d.key = d.xlator ++ ("." ++ d.setting) := String.append_assoc ..

theorem utf8ByteSize_point : (d.xlator ++ ".").utf8ByteSize = d.keep.point + 1 := by
  rw [String.utf8ByteSize_append]
  rfl

theorem utf8ByteSize_key :
    d.key.utf8ByteSize = d.keep.point + 1 + d.setting.utf8ByteSize := by
  rw [key, String.utf8ByteSize_append, utf8ByteSize_point]

/-- Both sides of the point are places between characters. -/
theorem isValid_point : String.Pos.Raw.IsValid d.key ⟨d.keep.point⟩ ∧
    String.Pos.Raw.IsValid d.key ⟨d.keep.point + 1⟩ := by
  have hbefore := isValid_append d.xlator ("." ++ d.setting)
  have hafter := isValid_append (d.xlator ++ ".") d.setting
  rw [← key_eq_before] at hbefore
  rw [utf8ByteSize_point, ← key] at hafter
  exact ⟨hbefore, hafter⟩

example : (keep ⟨"é", "ü", "x"⟩).key = "é.ü" ∧ (keep ⟨"é", "ü", "x"⟩).point = 2 := by decide

theorem xlator?_keep : d.keep.xlator? = some d.xlator := by
  have hcut := cut?_append d.xlator ("." ++ d.setting)
  rw [← key_eq_before] at hcut
  rw [Kept.xlator?, keep, hcut]
  rfl

theorem setting?_keep : d.keep.setting? = some d.setting := by
  have hcut := cut?_append (d.xlator ++ ".") d.setting
  rw [utf8ByteSize_point, ← key] at hcut
  rw [Kept.setting?]
  show (cut? d.key _).map _ = _
  rw [hcut]
  rfl

theorem point_eq_zero_iff : d.keep.point = 0 ↔ d.xlator = "" := String.utf8ByteSize_eq_zero_iff

theorem point_last_iff : d.keep.point + 1 = d.key.utf8ByteSize ↔ d.setting = "" := by
  rw [utf8ByteSize_key, ← String.utf8ByteSize_eq_zero_iff]
  omega

variable {d}

/-- The first point of the key is the one that ends the translator. -/
theorem place?_key (h : '.' ∉ d.xlator.toList) : place? '.' d.key = some d.keep.point := by
  have hfind : d.key.find? '.' = some (.ofEqAppend d.key_eq_before) :=
    String.find?_char_eq_some_iff_splits.mpr
      ⟨d.xlator, d.setting, String.Pos.splits_ofEqAppend _, h⟩
  rw [place?, hfind]
  rfl

theorem place?_eq_none {sign : Char} {text : String} (h : sign ∉ text.toList) :
    place? sign text = none := by
  cases hfind : text.find? sign with
  | none => rw [place?, hfind, Option.map_none]
  | some p =>
      obtain ⟨before, after, hsplits, -⟩ := String.find?_char_eq_some_iff_splits.mp hfind
      rw [hsplits.eq_append] at h
      simp at h

/-- What is kept of a text is kept of the directive that it says. -/
theorem read_kept (raw : List Char) : Kept.read raw = (read raw).map keep := by
  unfold Kept.read read
  cases hkey : splitAt? '=' raw with
  | none => rfl
  | some parts =>
      obtain ⟨key, value⟩ := parts
      cases hpoint : splitAt? '.' key with
      | none =>
          have hno : place? '.' (String.ofList key) = none :=
            place?_eq_none (by simpa using splitAt?_eq_none_iff.mp hpoint)
          simp only [hno, hpoint, Except.map]
      | some parts =>
          obtain ⟨x, s⟩ := parts
          obtain ⟨rfl, hfree⟩ := splitAt?_eq_some_iff.mp hpoint
          let d : Directive := ⟨String.ofList x, String.ofList s, String.ofList value⟩
          have hd : String.ofList (x ++ '.' :: s) = d.key := by
            rw [← String.toList_inj, toList_key]
            simp [d]
          have hplace := place?_key (d := d) (by simpa [d] using hfree)
          have hempty : (d.keep.point = 0 || d.keep.point + 1 = d.key.utf8ByteSize) =
              (x.isEmpty || s.isEmpty) := by
            rw [Bool.eq_iff_iff]
            simp [point_eq_zero_iff, point_last_iff, ← String.toList_inj, d]
          simp only [hpoint, hd, hplace, hempty]
          cases x.isEmpty || s.isEmpty <;> rfl

theorem parse_kept (raw : String) : Kept.parse raw = (parse raw).map keep := by
  rw [Kept.parse, parse, read_kept]
  cases read raw.toList <;> rfl

end Keep

/-- A text is a directive exactly if it is spelled like one, and what is kept of it is enough to cut
its key where the translator ends. -/
theorem parse_spelled (raw : String) :
    (∀ d, parse raw = .ok d ↔ Spells raw d) ∧
    (∀ d d', Spells raw d → Spells raw d' → d = d') ∧
    (∀ d, parse raw = .ok d → d.key = d.xlator ++ "." ++ d.setting ∧ d.display = raw ∧
      parse d.display = .ok d) ∧
    Kept.parse raw = (parse raw).map keep ∧
    (∀ k, Kept.parse raw = .ok k → ∃ d, Spells raw d ∧
      k.key = d.xlator ++ "." ++ d.setting ∧ k.value = d.value ∧ k.display = raw ∧
      0 < k.point ∧ k.point + 1 < k.key.utf8ByteSize ∧
      String.Pos.Raw.IsValid k.key ⟨k.point⟩ ∧ String.Pos.Raw.IsValid k.key ⟨k.point + 1⟩ ∧
      k.xlator? = some d.xlator ∧ k.setting? = some d.setting) ∧
    ((¬∃ d, Spells raw d) → ∃ e, parse raw = .error e ∧ Kept.parse raw = .error e ∧
      e.kind = .parse ∧ e.subject = raw) := by
  refine ⟨fun d => parse_eq_ok_iff, fun d d' h h' => ?_, fun d h => ?_, parse_kept raw,
    fun k hk => ?_, fun hno => ?_⟩
  · rw [← parse_eq_ok_iff] at h h'
    rw [h] at h'
    exact Except.ok.inj h'
  · have hshown := display_of_parse h
    exact ⟨rfl, hshown, by rw [hshown, h]⟩
  · rw [parse_kept] at hk
    cases hd : parse raw with
    | error e =>
        rw [hd] at hk
        cases hk
    | ok d =>
        rw [hd] at hk
        cases hk
        have hspells := parse_eq_ok_iff.mp hd
        have hfirst : d.keep.point ≠ 0 := fun h =>
          hspells.1.xlator_nonempty (d.point_eq_zero_iff.mp h)
        have hlast : d.keep.point + 1 ≠ d.key.utf8ByteSize := fun h =>
          hspells.1.setting_nonempty (d.point_last_iff.mp h)
        have hinside := d.utf8ByteSize_key
        exact ⟨d, hspells, rfl, rfl, display_of_parse hd, Nat.pos_of_ne_zero hfirst,
          show d.keep.point + 1 < d.key.utf8ByteSize by omega, d.isValid_point.1, d.isValid_point.2,
          d.xlator?_keep, d.setting?_keep⟩
  · cases hd : parse raw with
    | ok d => exact absurd ⟨d, parse_eq_ok_iff.mp hd⟩ hno
    | error e => exact ⟨e, rfl, by rw [parse_kept, hd]; rfl, parse_error hd⟩

end LockedCat.Directive
