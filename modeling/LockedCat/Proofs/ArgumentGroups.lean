import LockedCat.CommandLine.Scan

/-!
# Groups of arguments

The words of a command line fall into groups: a flag alone, a flag with its value in one of five
manners, or the operand. Main statement: groups that can stand together are read as what they
say, in whatever order they come.
-/

namespace LockedCat.CommandLine

open Text

/-! ## Groups -/

/-- How a flag and its value are written. -/
inductive Manner where
  /-- `-o VALUE` -/
  | shortApart
  /-- `-oVALUE` -/
  | shortJoined
  /-- `-o=VALUE` -/
  | shortEquals
  /-- `--xlator-option VALUE` -/
  | longApart
  /-- `--xlator-option=VALUE` -/
  | longEquals
deriving DecidableEq, Repr

/-- The values that can be written in this manner. -/
def Manner.Admits : Manner → String → Prop
  | shortApart, value | longApart, value => value.toList.head? ≠ some '-'
  | shortJoined, value => value ≠ "" ∧ value.toList.head? ≠ some '='
  | shortEquals, _ | longEquals, _ => True

def Manner.words (m : Manner) (f : Flag) (value : String) : List String :=
  match m with
  | shortApart => ["-" ++ String.singleton f.short, value]
  | shortJoined => ["-" ++ String.singleton f.short ++ value]
  | shortEquals => ["-" ++ String.singleton f.short ++ "=" ++ value]
  | longApart => ["--" ++ f.long, value]
  | longEquals => ["--" ++ f.long ++ "=" ++ value]

/-- The value is a word of its own. -/
def Manner.isApart : Manner → Bool
  | shortApart | longApart => true
  | _ => false

theorem Manner.head?_ne_of_isApart {m : Manner} {value : String} (hm : m.Admits value)
    (ha : m.isApart) : value.toList.head? ≠ some '-' := by
  cases m with
  | shortApart | longApart => exact hm
  | shortJoined | shortEquals | longEquals => cases ha

/-- A port is written with a digit or a plus sign in front, so that every manner admits it. -/
theorem Port.exists_head {text : String} {number : UInt16} (h : Port.parse? text = some number) :
    ∃ c rest, text.toList = c :: rest ∧ (c = '+' ∨ c.isDigit) := by
  unfold Port.parse? Port.ofChars? at h
  cases hl : text.toList with
  | nil => simp [hl, Port.unsigned] at h
  | cons c rest =>
      refine ⟨c, rest, rfl, ?_⟩
      by_cases hc : c = '+'
      · exact .inl hc
      · have hu : Port.unsigned (c :: rest) = c :: rest := by
          rw [Port.unsigned]
          intro tail he
          exact hc (List.cons.inj he).1
        rw [hl, hu] at h
        by_cases hd : c.isDigit
        · exact .inr hd
        · simp [Port.readDigits, Port.shift, hd] at h

theorem Manner.admits_of_port {text : String} {number : UInt16}
    (h : Port.parse? text = some number) (m : Manner) : m.Admits text := by
  obtain ⟨c, rest, hl, hc⟩ := Port.exists_head h
  have hsign (sign : Char) (hs : sign ≠ '+' ∧ sign.isDigit = false) :
      text.toList.head? ≠ some sign := by
    rw [hl, List.head?_cons, Ne, Option.some.injEq]
    rintro rfl
    rcases hc with hc | hc
    · exact hs.1 hc
    · rw [hs.2] at hc
      cases hc
  have hne : text ≠ "" := by
    rintro rfl
    cases hl
  cases m with
  | shortApart | longApart => exact hsign '-' (by decide)
  | shortJoined => exact ⟨hne, hsign '=' (by decide)⟩
  | shortEquals | longEquals => trivial

/-- Words that belong together. -/
inductive Group where
  | debug (atLength : Bool)
  | port (manner : Manner) (text : String) (number : UInt16)
      (reads : Port.parse? text = some number)
  | option (manner : Manner) (text : String) (admits : manner.Admits text)
  | operand (text : String) (free : text.toList.head? ≠ some '-')

namespace Group

def words : Group → List String
  | debug false => ["-d"]
  | debug true => ["--debug"]
  | port m text _ _ => m.words .port text
  | option m text _ => m.words .xlatorOption text
  | operand text _ => [text]

/-- What the group is for. -/
def slot : Group → Slot
  | debug _ => .flag .debug
  | port .. => .flag .port
  | option .. => .flag .xlatorOption
  | operand .. => .operand

def number? : Group → Option UInt16
  | port _ _ number _ => some number
  | _ => none

def option? : Group → Option String
  | option _ text _ => some text
  | _ => none

def operand? : Group → Option String
  | operand text _ => some text
  | _ => none

/-- The value that the group gives to its slot. -/
def value? : Group → Option Glyphs
  | debug _ => none
  | port _ text _ _ | option _ text _ | operand text _ => some (.ofString text)

end Group

/-! What groups say together, each group after the ones before it. -/

def debugOf (gs : List Group) : Bool := gs.any (·.slot = .flag .debug)

def portOf (gs : List Group) : Option UInt16 := (gs.filterMap Group.number?).getLast?

def optionsOf (gs : List Group) : List String := gs.filterMap Group.option?

def operandOf (gs : List Group) : Option String := (gs.filterMap Group.operand?).getLast?

theorem debugOf_concat (gs : List Group) (g : Group) :
    debugOf (gs ++ [g]) = (debugOf gs || decide (g.slot = .flag .debug)) := by
  simp [debugOf]

theorem portOf_concat (gs : List Group) (g : Group) :
    portOf (gs ++ [g]) = g.number?.or (portOf gs) := by
  cases hg : g.number? <;> simp [portOf, hg]

theorem optionsOf_concat (gs : List Group) (g : Group) :
    optionsOf (gs ++ [g]) = optionsOf gs ++ g.option?.toList := by
  cases hg : g.option? <;> simp [optionsOf, hg]

theorem operandOf_concat (gs : List Group) (g : Group) :
    operandOf (gs ++ [g]) = g.operand?.or (operandOf gs) := by
  cases hg : g.operand? <;> simp [operandOf, hg]

/-- A group with a slot that can be filled once only is the one group with that slot. -/
def Compatible (gs : List Group) : Prop :=
  ∀ g ∈ gs, g.slot.isSingle → gs.countP (·.slot = g.slot) ≤ 1

theorem Compatible.of_append {gs gs' : List Group} (h : Compatible (gs ++ gs')) :
    Compatible gs := by
  intro g hg hs
  have := h g (List.mem_append_left gs' hg) hs
  rw [List.countP_append] at this
  omega

theorem Compatible.slot_ne {gs : List Group} {g : Group} (h : Compatible (gs ++ [g]))
    (hg : g.slot.isSingle) : ∀ g' ∈ gs, g'.slot ≠ g.slot := by
  intro g' hm he
  have hcount := h g (by simp) hg
  have hpos : 0 < gs.countP (·.slot = g.slot) := List.countP_pos_iff.mpr ⟨g', hm, by simpa using he⟩
  simp only [List.countP_append, List.countP_singleton, decide_true, if_true] at hcount
  omega

/-! ## What has been read -/

namespace Scan

/-- Nothing waits, and these groups have been read. -/
structure Holds (s : Scan) (gs : List Group) : Prop where
  waiting : s.waiting = none
  operandsOnly : s.operandsOnly = false
  debug : s.debug = debugOf gs
  port : s.port = portOf gs
  options : s.options = optionsOf gs
  operand : s.operand = operandOf gs
  given : ∀ slot, slot ∈ s.given ↔ ∃ g ∈ gs, g.slot = slot

/-- These groups have been read, and no flag waits for its value. -/
structure Reads (s : Scan) (gs : List Group) : Prop where
  settles : ∃ t : Scan, s.settle = .ok t ∧ t.Holds gs
  operandsOnly : s.operandsOnly = false
  supplied : ∀ f, s.waiting ≠ some (.flag f, none)
  hasOperand : s.hasOperand = (operandOf gs).isSome

variable {s t : Scan} {gs : List Group} {g : Group}

theorem mem_mention {given : List Slot} {slot slot' : Slot} :
    slot' ∈ mention given slot ↔ slot' ∈ given ∨ slot' = slot := by
  unfold mention
  split
  · rename_i hm
    exact ⟨.inl, fun h => h.elim id fun he => he ▸ hm⟩
  · simp

theorem Holds.not_given (h : t.Holds gs) (hc : Compatible (gs ++ [g])) (hs : g.slot.isSingle) :
    g.slot ∉ t.given := by
  intro hm
  obtain ⟨g', hg', he⟩ := (h.given _).mp hm
  exact hc.slot_ne hs g' hg' he

/-- One more group fills its slot. -/
theorem Holds.fill (h : t.Holds gs) (hc : Compatible (gs ++ [g])) :
    ∃ t', t.fill g.slot g.value? = .ok t' ∧ t'.Holds (gs ++ [g]) := by
  have hgiven (slot : Slot) :
      slot ∈ mention t.given g.slot ↔ ∃ g' ∈ gs ++ [g], g'.slot = slot := by
    rw [mem_mention, h.given]
    simp [or_and_right, exists_or, eq_comm]
  have hnew := h.not_given hc
  have hdebug := debugOf_concat gs g
  have hport := portOf_concat gs g
  have hoptions := optionsOf_concat gs g
  have hoperand := operandOf_concat gs g
  rw [← h.debug] at hdebug
  rw [← h.port] at hport
  rw [← h.options] at hoptions
  rw [← h.operand] at hoperand
  cases g with
  | debug atLength =>
      have hnew : Slot.flag .debug ∉ t.given := hnew rfl
      refine ⟨{ t with debug := true, given := mention t.given (.flag .debug) }, ?_,
        ⟨h.waiting, h.operandsOnly, ?_, hport.symm, ?_, hoperand.symm, hgiven⟩⟩
      · simp [Scan.fill, Group.slot, Group.value?, Flag.takesValue, Flag.valueName?, hnew]
      · simp [hdebug, Group.slot]
      · simp [hoptions, Group.option?]
  | port manner text number reads =>
      have hnew : Slot.flag .port ∉ t.given := hnew rfl
      refine ⟨{ t with port := some number, given := mention t.given (.flag .port) }, ?_,
        ⟨h.waiting, h.operandsOnly, ?_, hport.symm, ?_, hoperand.symm, hgiven⟩⟩
      · simp [Scan.fill, Group.slot, Group.value?, Flag.isRepeatable, hnew, reads]
      · simp [hdebug, Group.slot]
      · simp [hoptions, Group.option?]
  | option manner text admits =>
      refine ⟨{ t with
          options := t.options ++ [text], given := mention t.given (.flag .xlatorOption) }, ?_,
        ⟨h.waiting, h.operandsOnly, ?_, hport.symm, hoptions.symm, hoperand.symm, hgiven⟩⟩
      · simp [Scan.fill, Group.slot, Group.value?, Flag.isRepeatable]
      · simp [hdebug, Group.slot]
  | operand text free =>
      refine ⟨{ t with operand := some text, given := mention t.given .operand }, ?_,
        ⟨h.waiting, h.operandsOnly, ?_, hport.symm, ?_, hoperand.symm, hgiven⟩⟩
      · simp [Scan.fill, Group.slot, Group.value?]
      · simp [hdebug, Group.slot]
      · simp [hoptions, Group.option?]

theorem Holds.reads (h : t.Holds gs) : t.Reads gs where
  settles := ⟨t, by simp [settle, h.waiting], h⟩
  operandsOnly := h.operandsOnly
  supplied f := by simp [h.waiting]
  hasOperand := by simp [hasOperand, h.waiting, h.operand]

/-- A group that waits to be settled has been read as well. -/
theorem Holds.waits {value : Glyphs} (h : t.Holds gs) (hc : Compatible (gs ++ [g]))
    (hv : g.value? = some value) :
    { t with waiting := some (g.slot, some value) }.Reads (gs ++ [g]) where
  settles := by
    obtain ⟨t', hfill, h'⟩ := h.fill hc
    have ht : { t with waiting := none } = t := by rw [← h.waiting]
    refine ⟨t', ?_, h'⟩
    simp only [settle, ht, ← hv]
    exact hfill
  operandsOnly := h.operandsOnly
  supplied f := by simp
  hasOperand := by
    rw [operandOf_concat, ← h.operand]
    cases g with
    | debug => cases hv
    | port | option => simp [hasOperand, Group.slot, Group.operand?]
    | operand => simp [hasOperand, Group.slot, Group.operand?]

/-! ## Words -/

theorem step_long {rest : Glyphs} (ho : s.operandsOnly = false) (hr : rest ≠ []) :
    s.step (.char '-' :: .char '-' :: rest) = s.long rest := by
  cases rest with
  | nil => exact absurd rfl hr
  | cons g rest => simp [step, ho]

theorem step_short {c : Char} (ho : s.operandsOnly = false) (hc : c ≠ '-') (rest : Glyphs) :
    s.step (.char '-' :: .char c :: rest) = s.cluster (.char c :: rest) := by
  unfold step
  rw [ho]
  simp only [Bool.false_eq_true, if_false]
  split <;> simp_all

/-- A word that does not look like a flag is the value that is waited for, or an operand. -/
theorem step_plain {value : String} (ho : s.operandsOnly = false)
    (hv : value.toList.head? ≠ some '-') :
    s.step (.ofString value) =
      match s.waiting with
      | some (.flag f, none) => .ok { s with waiting := some (.flag f, some (.ofString value)) }
      | _ => s.word (.ofString value) := by
  have hhead (rest : Glyphs) : Glyphs.ofString value ≠ .char '-' :: rest := by
    intro he
    unfold Glyphs.ofString at he
    cases hl : value.toList with
    | nil => simp [hl] at he
    | cons c cs =>
        rw [hl, List.map_cons, List.cons.injEq, Glyph.char.injEq] at he
        exact hv (by rw [hl, he.1]; rfl)
  unfold step
  rw [ho]
  simp only [Bool.false_eq_true, if_false]
  split
  · rename_i he
    exact absurd he (hhead _)
  · rename_i he
    exact absurd he (hhead _)
  · rename_i he
    exact absurd he (hhead _)
  · rfl

theorem splitValue_append {name : List Char} (hn : '=' ∉ name) (rest : Glyphs) :
    splitValue (name.map .char ++ rest) =
      (name.map .char ++ (splitValue rest).1, (splitValue rest).2) := by
  induction name with
  | nil => rfl
  | cons c cs ih =>
      rw [List.mem_cons, not_or] at hn
      rw [List.map_cons, List.cons_append, splitValue, ih hn.2]
      · rfl
      · intro he
        cases he
        exact hn.1 rfl

theorem attached_eq_some {value : String} (hne : value ≠ "")
    (hv : value.toList.head? ≠ some '=') :
    attached (.ofString value) = some (.ofString value) := by
  unfold Glyphs.ofString
  cases hl : value.toList with
  | nil => exact absurd (String.toList_inj.mp hl) hne
  | cons c cs =>
      rw [hl] at hv
      rw [List.map_cons, attached]
      · simp
      · intro rest he
        cases he
        exact hv rfl

/-! ## Flags -/

theorem take_ok {s t t' : Scan} {f : Flag} {value : Option Glyphs} (hq : f.isQuery = false)
    (hs : s.settle = .ok t) (hf : t.fill (.flag f) value = .ok t') (atLength : Bool) :
    s.take f atLength value = .ok t' := by
  cases f with
  | help | version => cases hq
  | debug | xlatorOption | port => simp [take, hs, hf]

theorem step_short_flag (ho : s.operandsOnly = false) (f : Flag) (rest : Glyphs) :
    s.step (.char '-' :: .char f.short :: rest) =
      if f.takesValue then s.takeValue f false (attached rest)
      else (s.take f false none).bind (cluster · rest) := by
  rw [step_short ho f.short_ne_dash]
  simp only [cluster, Flag.ofShort?_short]
  cases s.take f false none <;> rfl

theorem step_long_flag (ho : s.operandsOnly = false) (f : Flag) {rest : Glyphs}
    (hrest : (splitValue rest).1 = []) :
    s.step (.char '-' :: .char '-' :: (Glyphs.ofString f.long ++ rest)) =
      if f.takesValue then s.takeValue f true (splitValue rest).2
      else
        (splitValue rest).2.elim (s.take f true none) fun value =>
          .error (.refused (.attachedValue f value.shown s.given)) := by
  have hne : Glyphs.ofString f.long ++ rest ≠ [] := by
    simp [Glyphs.ofString, String.toList_eq_nil_iff, f.long_ne_empty]
  have htext : Glyphs.text? (f.long.toList.map .char) = some f.long := Glyphs.text?_ofString f.long
  rw [step_long ho hne]
  simp only [long, Glyphs.ofString, splitValue_append f.equals_not_mem_long, hrest,
    List.append_nil, htext, Option.bind_some, Flag.ofLong?_long]
  cases (splitValue rest).2 <;> rfl

/-- A flag that takes no value is complete as a word of its own. -/
theorem step_flag_alone {f : Flag} (ho : s.operandsOnly = false) (hf : f.takesValue = false) :
    s.step (.ofString ("-" ++ String.singleton f.short)) = s.take f false none ∧
      s.step (.ofString ("--" ++ f.long)) = s.take f true none := by
  constructor
  · have hword : Glyphs.ofString ("-" ++ String.singleton f.short) =
        [.char '-', .char f.short] := by
      simp [Glyphs.ofString]
    rw [hword, step_short_flag ho f, hf]
    cases s.take f false none <;> rfl
  · have hword : Glyphs.ofString ("--" ++ f.long) =
        .char '-' :: .char '-' :: (Glyphs.ofString f.long ++ []) := by
      simp [Glyphs.ofString]
    rw [hword, step_long_flag ho f rfl, hf]
    rfl

/-- The word with the flag, in whatever manner, brings the value or leaves it to the next word. -/
theorem step_flag {f : Flag} {value : String} {m : Manner} (hf : f.takesValue)
    (ho : s.operandsOnly = false) (hm : m.Admits value) :
    ∃ (word : String) (atLength : Bool),
      m.words f value = word :: (if m.isApart then [value] else []) ∧
      s.step (.ofString word) =
        s.takeValue f atLength (if m.isApart then none else some (.ofString value)) := by
  cases m with
  | shortApart =>
      have hword : Glyphs.ofString ("-" ++ String.singleton f.short) =
          [.char '-', .char f.short] := by
        simp [Glyphs.ofString]
      refine ⟨_, false, rfl, ?_⟩
      rw [hword, step_short_flag ho f, if_pos hf]
      rfl
  | shortJoined =>
      have hword : Glyphs.ofString ("-" ++ String.singleton f.short ++ value) =
          .char '-' :: .char f.short :: Glyphs.ofString value := by
        simp [Glyphs.ofString]
      refine ⟨_, false, rfl, ?_⟩
      rw [hword, step_short_flag ho f, if_pos hf, attached_eq_some hm.1 hm.2]
      rfl
  | shortEquals =>
      have hword : Glyphs.ofString ("-" ++ String.singleton f.short ++ "=" ++ value) =
          .char '-' :: .char f.short :: .char '=' :: Glyphs.ofString value := by
        simp [Glyphs.ofString]
      refine ⟨_, false, rfl, ?_⟩
      rw [hword, step_short_flag ho f, if_pos hf]
      rfl
  | longApart =>
      have hword : Glyphs.ofString ("--" ++ f.long) =
          .char '-' :: .char '-' :: (Glyphs.ofString f.long ++ []) := by
        simp [Glyphs.ofString]
      refine ⟨_, true, rfl, ?_⟩
      rw [hword, step_long_flag ho f rfl, if_pos hf]
      rfl
  | longEquals =>
      have hword : Glyphs.ofString ("--" ++ f.long ++ "=" ++ value) = .char '-' :: .char '-' ::
          (Glyphs.ofString f.long ++ .char '=' :: Glyphs.ofString value) := by
        simp [Glyphs.ofString]
      refine ⟨_, true, rfl, ?_⟩
      rw [hword, step_long_flag ho f rfl, if_pos hf]
      rfl

/-- A flag and its value are read: the flag is settled, or waits with its value. -/
theorem run_words {s t t' : Scan} {f : Flag} {value : String} {m : Manner} (hf : f.takesValue)
    (ho : s.operandsOnly = false) (hs : s.settle = .ok t) (ht : t.operandsOnly = false)
    (hfill : t.fill (.flag f) (some (.ofString value)) = .ok t') (hm : m.Admits value) :
    s.run ((m.words f value).map .ofString) =
      .ok (if m.isApart then { t with waiting := some (.flag f, some (.ofString value)) }
        else t') := by
  obtain ⟨word, atLength, hwords, hstep⟩ := step_flag hf ho hm
  rw [hwords, List.map_cons, run, hstep]
  cases ha : m.isApart with
  | false =>
      have hquery : f.isQuery = false := by cases f <;> first | rfl | cases hf
      simp [takeValue, take_ok hquery hs hfill, run]
  | true =>
      have hvalue := step_plain (s := { t with waiting := some (.flag f, none) }) ht
        (m.head?_ne_of_isApart hm ha)
      simp [takeValue, hs, run, hvalue]

theorem run_append (s : Scan) (ws more : List Glyphs) :
    s.run (ws ++ more) = (s.run ws).bind (·.run more) := by
  induction ws generalizing s with
  | nil => rfl
  | cons w rest ih =>
      simp only [List.cons_append, run]
      cases s.step w with
      | error e => rfl
      | ok s' => exact ih s'

/-! ## Groups, one after the other -/

theorem Reads.debug {atLength : Bool} (h : s.Reads gs)
    (hc : Compatible (gs ++ [.debug atLength])) :
    ∃ s', s.run ((Group.debug atLength).words.map .ofString) = .ok s' ∧
      s'.Reads (gs ++ [.debug atLength]) := by
  obtain ⟨t, hs, ht⟩ := h.settles
  obtain ⟨t', hfill, ht'⟩ := ht.fill hc
  have htake (atLength : Bool) : s.take .debug atLength none = .ok t' := take_ok rfl hs hfill _
  refine ⟨t', ?_, ht'.reads⟩
  cases atLength with
  | false =>
      have hstep : s.step (.ofString "-d") = s.take .debug false none :=
        (step_flag_alone (f := .debug) h.operandsOnly rfl).1
      simp [Group.words, run, hstep, htake]
  | true =>
      have hstep : s.step (.ofString "--debug") = s.take .debug true none :=
        (step_flag_alone (f := .debug) h.operandsOnly rfl).2
      simp [Group.words, run, hstep, htake]

theorem Reads.valued {f : Flag} {m : Manner} {text : String} (h : s.Reads gs)
    (hc : Compatible (gs ++ [g])) (hslot : g.slot = .flag f)
    (hvalue : g.value? = some (.ofString text)) (hf : f.takesValue) (hm : m.Admits text) :
    ∃ s', s.run ((m.words f text).map .ofString) = .ok s' ∧ s'.Reads (gs ++ [g]) := by
  obtain ⟨t, hs, ht⟩ := h.settles
  obtain ⟨t', hfill, ht'⟩ := ht.fill hc
  rw [hslot, hvalue] at hfill
  refine ⟨_, run_words hf h.operandsOnly hs ht.operandsOnly hfill hm, ?_⟩
  split
  · rw [← hslot]
    exact ht.waits hc hvalue
  · exact ht'.reads

theorem Reads.operand {text : String} {free : text.toList.head? ≠ some '-'} (h : s.Reads gs)
    (hc : Compatible (gs ++ [.operand text free])) :
    ∃ s', s.run [.ofString text] = .ok s' ∧ s'.Reads (gs ++ [.operand text free]) := by
  obtain ⟨t, hs, ht⟩ := h.settles
  have hnone : s.hasOperand = false := by
    rw [h.hasOperand, ← ht.operand]
    cases ho : t.operand with
    | none => rfl
    | some other =>
        -- The operand that is there came from a group, and there can be no other such group.
        rw [ht.operand, operandOf] at ho
        obtain ⟨g', hg', ho'⟩ := List.mem_filterMap.mp (List.mem_of_getLast? ho)
        have hslot : g'.slot = .operand := by cases g' <;> first | rfl | cases ho'
        exact absurd hslot (hc.slot_ne rfl g' hg')
  refine ⟨_, ?_, ht.waits hc rfl⟩
  have hstep : s.step (.ofString text) =
      .ok { t with waiting := some (.operand, some (.ofString text)) } := by
    rw [step_plain h.operandsOnly free]
    split
    · rename_i hw
      exact absurd hw (h.supplied _)
    · simp [word, hnone, hs]
  simp [run, hstep, Group.slot]

theorem Reads.group (h : s.Reads gs) (hc : Compatible (gs ++ [g])) :
    ∃ s', s.run (g.words.map .ofString) = .ok s' ∧ s'.Reads (gs ++ [g]) := by
  cases g with
  | debug atLength => exact h.debug hc
  | port m text number reads => exact h.valued hc rfl rfl rfl (m.admits_of_port reads)
  | option m text admits => exact h.valued hc rfl rfl rfl admits
  | operand text free => exact h.operand hc

theorem Reads.groups (h : s.Reads gs) (more : List Group) (hc : Compatible (gs ++ more)) :
    ∃ s', s.run ((more.flatMap Group.words).map .ofString) = .ok s' ∧
      s'.Reads (gs ++ more) := by
  induction more generalizing s gs with
  | nil => exact ⟨s, rfl, by simpa using h⟩
  | cons g rest ih =>
      rw [List.append_cons] at hc
      obtain ⟨s₁, hrun₁, h₁⟩ := h.group hc.of_append
      obtain ⟨s₂, hrun₂, h₂⟩ := ih h₁ hc
      refine ⟨s₂, ?_, by rwa [List.append_cons]⟩
      rw [List.flatMap_cons, List.map_append, run_append, hrun₁]
      exact hrun₂

/-- Groups that can stand together are read without a fault. -/
theorem run_groups (hc : Compatible gs) :
    ∃ s : Scan, ({} : Scan).run ((gs.flatMap Group.words).map .ofString) = .ok s ∧ s.Reads gs := by
  have hempty : ({} : Scan).Holds [] := ⟨rfl, rfl, rfl, rfl, rfl, rfl, by simp⟩
  exact hempty.reads.groups gs hc

theorem Reads.finish {operand : String} (h : s.Reads gs) (ho : operandOf gs = some operand) :
    s.finish = .ok ⟨debugOf gs, portOf gs, optionsOf gs, operand⟩ := by
  obtain ⟨t, hs, ht⟩ := h.settles
  have hoperand := ht.operand.trans ho
  simp [Scan.finish, hs, hoperand, ht.debug, ht.port, ht.options]

theorem Reads.finish_missing (h : s.Reads gs) (ho : operandOf gs = none) :
    ∃ given, s.finish = .error (.refused (.missingOperand given)) := by
  obtain ⟨t, hs, ht⟩ := h.settles
  have hoperand := ht.operand.trans ho
  exact ⟨t.given, by simp [Scan.finish, hs, hoperand]⟩

end Scan

/-- Groups that can stand together are read as what they say. -/
theorem read_groups {gs : List Group} {operand : String} (hc : Compatible gs)
    (ho : operandOf gs = some operand) :
    read ((gs.flatMap Group.words).map .ofString) =
      .ok ⟨debugOf gs, portOf gs, optionsOf gs, operand⟩ := by
  obtain ⟨s, hrun, hs⟩ := Scan.run_groups hc
  rw [read, hrun]
  exact hs.finish ho

/-- Without an operand they are refused for that. -/
theorem read_groups_missing {gs : List Group} (hc : Compatible gs) (ho : operandOf gs = none) :
    ∃ given, read ((gs.flatMap Group.words).map .ofString) =
      .error (.refused (.missingOperand given)) := by
  obtain ⟨s, hrun, hs⟩ := Scan.run_groups hc
  rw [read, hrun]
  exact hs.finish_missing ho

end LockedCat.CommandLine
