import LockedCat.Port

/-!
# Written ports

A port is accumulated in 16 bits while its text may be of any length. Main statement: a text is
read as a port exactly if it writes a number from 1 to 65535, and then as that number, so that no
accumulation that would wrap is ever taken for a port, and the decimal text of a port reads back as
the port.
-/

namespace LockedCat.Port

theorem le_ofDigitChars (cs : List Char) (acc : Nat) : acc ≤ Nat.ofDigitChars 10 cs acc := by
  induction cs generalizing acc with
  | nil => exact Nat.le_refl acc
  | cons c rest ih =>
      rw [Nat.ofDigitChars_cons]
      have hrest := ih (10 * acc + (c.toNat - '0'.toNat))
      omega

theorem shift_eq_some_iff {acc n : Nat} {c : Char} :
    shift acc c = some n ↔
      c.isDigit ∧ n = 10 * acc + (c.toNat - '0'.toNat) ∧ n < 65536 := by
  have hcomm : acc * 10 = 10 * acc := Nat.mul_comm acc 10
  unfold shift
  by_cases hd : c.isDigit
  · rw [if_pos hd, hcomm]
    simp only [hd, true_and]
    split
    · rename_i hlt
      rw [Option.some.injEq]
      omega
    · rename_i hlt
      simp only [reduceCtorEq, false_iff]
      omega
  · simp [hd]

/-- Digits are read as the number that they write, and as nothing if that is too large. -/
theorem readDigits_eq_some_iff {acc n : Nat} {cs : List Char} (hacc : acc < 65536) :
    readDigits acc cs = some n ↔
      (∀ c ∈ cs, c.isDigit) ∧ n = Nat.ofDigitChars 10 cs acc ∧ n < 65536 := by
  induction cs generalizing acc with
  | nil =>
      simp only [readDigits, Option.some.injEq, List.not_mem_nil, false_implies, implies_true,
        true_and, Nat.ofDigitChars_nil]
      omega
  | cons c rest ih =>
      rw [readDigits, Option.bind_eq_some_iff, List.forall_mem_cons, Nat.ofDigitChars_cons]
      constructor
      · rintro ⟨m, hshift, hrest⟩
        obtain ⟨hd, hm, hlt⟩ := shift_eq_some_iff.mp hshift
        obtain ⟨hall, hn⟩ := (ih hlt).mp hrest
        rw [hm] at hn
        exact ⟨⟨hd, hall⟩, hn⟩
      · rintro ⟨⟨hd, hall⟩, hn, hlt⟩
        -- The accumulated number never shrinks, so it fits all along if it fits in the end.
        have hle := le_ofDigitChars rest (10 * acc + (c.toNat - '0'.toNat))
        have hm : 10 * acc + (c.toNat - '0'.toNat) < 65536 := by omega
        exact ⟨_, shift_eq_some_iff.mpr ⟨hd, rfl, hm⟩, (ih hm).mpr ⟨hall, hn, hlt⟩⟩

/-! ## Written numbers -/

/-- Decimal digits with this value, any number of zeros before them, after one plus sign or none. -/
def Writes (cs : List Char) (n : Nat) : Prop :=
  ∃ digits, digits ≠ [] ∧ (∀ c ∈ digits, c.isDigit) ∧ Nat.ofDigitChars 10 digits 0 = n ∧
    (cs = digits ∨ cs = '+' :: digits)

theorem ne_plus_of_isDigit {digits : List Char} (hd : ∀ c ∈ digits, c.isDigit)
    (rest : List Char) : digits ≠ '+' :: rest := by
  rintro rfl
  have hplus : '+'.isDigit := hd '+' (List.mem_cons_self ..)
  cases hplus

theorem unsigned_eq_iff {cs digits : List Char} (hd : ∀ c ∈ digits, c.isDigit) :
    unsigned cs = digits ↔ cs = digits ∨ cs = '+' :: digits := by
  unfold unsigned
  split
  · rename_i rest
    constructor
    · rintro rfl
      exact .inr rfl
    · rintro (h | h)
      · exact absurd h.symm (ne_plus_of_isDigit hd rest)
      · exact (List.cons.inj h).2
  · rename_i hplus
    constructor
    · exact .inl
    · rintro (h | h)
      · exact h
      · exact absurd h (hplus digits)

/-- No text writes two numbers. -/
theorem Writes.unique {cs : List Char} {m n : Nat} (h : Writes cs m) (h' : Writes cs n) :
    m = n := by
  obtain ⟨digits, -, hd, hm, hcs⟩ := h
  obtain ⟨digits', -, hd', hn, hcs'⟩ := h'
  have hdigits : digits = digits' := by
    rw [← (unsigned_eq_iff hd).mpr hcs, (unsigned_eq_iff hd').mpr hcs']
  rw [← hm, ← hn, hdigits]

theorem bind_readDigits_eq_some_iff {ds : List Char} {port : UInt16} :
    ((readDigits 0 ds).bind fun n => if n = 0 then none else some n.toUInt16) = some port ↔
      (∀ c ∈ ds, c.isDigit) ∧ Nat.ofDigitChars 10 ds 0 = port.toNat ∧ port ≠ 0 := by
  rw [Option.bind_eq_some_iff]
  constructor
  · rintro ⟨n, hread, hn⟩
    obtain ⟨hall, hvalue, hlt⟩ := (readDigits_eq_some_iff (by omega)).mp hread
    split at hn
    · cases hn
    · rename_i hzero
      have hport : port.toNat = n := by
        rw [← Option.some.inj hn]
        exact UInt16.toNat_ofNat_of_lt' hlt
      refine ⟨hall, by omega, ?_⟩
      rintro rfl
      exact hzero hport.symm
  · rintro ⟨hall, hvalue, hport⟩
    have hzero : port.toNat ≠ 0 := fun h => hport (UInt16.toNat_inj.mp h)
    refine ⟨port.toNat, ?_, ?_⟩
    · exact (readDigits_eq_some_iff (by omega)).mpr ⟨hall, hvalue.symm, port.toNat_lt⟩
    · rw [if_neg hzero]
      exact congrArg some UInt16.ofNat_toNat

/-! ## Ports -/

theorem ofChars?_eq_some_iff {cs : List Char} {port : UInt16} :
    ofChars? cs = some port ↔ Writes cs port.toNat ∧ port ≠ 0 := by
  unfold ofChars?
  split
  · rename_i hnil
    constructor
    · intro h
      cases h
    · rintro ⟨⟨digits, hne, hd, -, hcs⟩, -⟩
      rw [(unsigned_eq_iff hd).mpr hcs] at hnil
      exact absurd hnil hne
  · rename_i hne
    rw [bind_readDigits_eq_some_iff]
    constructor
    · rintro ⟨hd, hvalue, hport⟩
      exact ⟨⟨unsigned cs, hne, hd, hvalue, (unsigned_eq_iff hd).mp rfl⟩, hport⟩
    · rintro ⟨⟨digits, -, hd, hvalue, hcs⟩, hport⟩
      rw [(unsigned_eq_iff hd).mpr hcs]
      exact ⟨hd, hvalue, hport⟩

theorem ofChars?_ne_zero {cs : List Char} {port : UInt16} (h : ofChars? cs = some port) :
    port ≠ 0 :=
  (ofChars?_eq_some_iff.mp h).2

/-- A text that is no port writes no number that is one. -/
theorem ofChars?_eq_none_iff {cs : List Char} :
    ofChars? cs = none ↔ ¬∃ n, Writes cs n ∧ 1 ≤ n ∧ n ≤ 65535 := by
  constructor
  · rintro hnone ⟨n, hn, hpos, hle⟩
    have hlt : n < 65536 := by omega
    have hback : n.toUInt16.toNat = n := UInt16.toNat_ofNat_of_lt' hlt
    have hport : ofChars? cs = some n.toUInt16 := by
      apply ofChars?_eq_some_iff.mpr
      rw [hback]
      refine ⟨hn, fun hzero => ?_⟩
      rw [hzero] at hback
      have hn0 : 0 = n := hback
      omega
    rw [hnone] at hport
    cases hport
  · intro hnot
    cases hport : ofChars? cs with
    | none => rfl
    | some port =>
        obtain ⟨hn, hne⟩ := ofChars?_eq_some_iff.mp hport
        have hpos : port.toNat ≠ 0 := fun h => hne (UInt16.toNat_inj.mp h)
        have hlt : port.toNat < 65536 := port.toNat_lt
        exact absurd ⟨port.toNat, hn, by omega, by omega⟩ hnot

/-! ## Decimal texts -/

/-- The decimal text of a number. -/
def decimal (n : Nat) : List Char := (toString n).toList

theorem decimal_eq (n : Nat) : decimal n = Nat.toDigits 10 n := by
  rw [decimal, Nat.toString_eq_repr, Nat.toList_repr]

theorem isDigit_of_mem_decimal {n : Nat} {c : Char} (h : c ∈ decimal n) : c.isDigit := by
  rw [decimal_eq] at h
  exact Nat.isDigit_of_mem_toDigits (by omega) (by omega) h

theorem writes_decimal (n : Nat) : Writes (decimal n) n := by
  refine ⟨decimal n, ?_, fun c hc => isDigit_of_mem_decimal hc, ?_, .inl rfl⟩
  · rw [decimal_eq]
    exact Nat.toDigits_ne_nil
  · rw [decimal_eq, Nat.ofDigitChars_ten_toDigits]

/-- A port reads back from its decimal text. -/
theorem ofChars?_decimal (port : UInt16) :
    ofChars? (decimal port.toNat) = if port = 0 then none else some port := by
  by_cases hzero : port = 0
  · subst hzero
    rfl
  · rw [if_neg hzero]
    exact ofChars?_eq_some_iff.mpr ⟨writes_decimal port.toNat, hzero⟩

/-- A text is read as a port exactly if it writes a number from 1 to 65535 in decimal digits, and as
this number. A number that is too large is never taken for a port, however long its text is, and the
decimal text of every number of 16 bits but 0 reads back. -/
theorem parse?_written (text : String) :
    (∀ port, parse? text = some port ↔ Writes text.toList port.toNat ∧ port ≠ 0) ∧
    (parse? text = none ↔ ¬∃ n, Writes text.toList n ∧ 1 ≤ n ∧ n ≤ 65535) ∧
    (∀ n, Writes text.toList n → 65536 ≤ n → parse? text = none) ∧
    ∀ n : UInt16, parse? (toString n.toNat) = if n = 0 then none else some n := by
  refine ⟨fun port => ofChars?_eq_some_iff, ofChars?_eq_none_iff, fun n hn hlarge => ?_,
    ofChars?_decimal⟩
  apply ofChars?_eq_none_iff.mpr
  rintro ⟨m, hm, -, hle⟩
  have hmn := hm.unique hn
  omega

/-- 65537 would wrap to 1. -/
example : parse? "+00065535" = some 65535 ∧ parse? "65537" = none := by decide +kernel

end LockedCat.Port
