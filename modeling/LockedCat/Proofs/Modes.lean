import LockedCat.Memory
import LockedCat.Proofs.BarePaths
import LockedCat.Proofs.Commands
import LockedCat.Proofs.Trace

/-!
# The two modes

A command line is read for a session or for none, and the operand is all that is read differently.
Main statement: no command line is a command in both modes, and both show the same instead of a
command exactly if it is shown before the operand is looked at. A command that was read for the
other mode is refused before anything is done, and no command is that was read as its context asks
for.
-/

namespace LockedCat

/-! ## Operands -/

/-- A locator begins with its scheme, a path with a slash. -/
theorem Locator.Form.head?_ne_slash (f : Form) : f.chars.head? ≠ some '/' := by
  have hscheme : ∃ rest, f.scheme.chars = 'g' :: rest := by
    cases f.scheme <;> exact ⟨_, rfl⟩
  obtain ⟨rest, hrest⟩ := hscheme
  simp [chars, hrest]

/-- A text that names a file of a session is no locator. -/
theorem Locator.parse_ne_ok_of_path {raw : String} {path : VolumePath}
    (h : VolumePath.parse raw = .ok path) (standard : UInt16) (u : Locator) :
    parse raw standard ≠ .ok u := by
  intro hu
  obtain ⟨f, hf, -⟩ := parse_eq_ok_iff.mp hu
  have hhead := (namesFile_iff.mp (VolumePath.parse_eq_ok_iff.mp h).1).1
  exact f.head?_ne_slash (hf ▸ hhead)

theorem head?_append_of_head? {lead : String} {c : Char} (h : lead.toList.head? = some c)
    (rest : String) : (lead ++ rest).toList.head? = some c := by
  rw [String.toList_append, List.head?_append, h]
  rfl

/-- What is wrong with a locator is not what is wrong with a path. -/
theorem Locator.Complaint.message_ne (c : Complaint) : c.message ≠ VolumePath.complaint := by
  have hpath : VolumePath.complaint.toList.head? = some 'e' := rfl
  intro h
  cases c with
  | form => exact absurd h (by decide +kernel)
  | missingPath volume =>
      rw [← h] at hpath
      have hlead : "missing path inside volume '".toList.head? = some 'm' := rfl
      have hm := head?_append_of_head? (head?_append_of_head? hlead volume) "'"
      cases hm.symm.trans hpath
  | port text =>
      rw [← h] at hpath
      have hlead : "invalid port '".toList.head? = some 'i' := rfl
      have hi := head?_append_of_head? (head?_append_of_head? hlead text) "'"
      cases hi.symm.trans hpath

namespace Command

open CommandLine

namespace Target

variable {operand : String} {port : Option UInt16} {e : Error}

theorem read_path_error (h : Target.read operand port true = .error e) :
    e = ⟨.parse, operand, { root := VolumePath.complaint }⟩ := by
  unfold Target.read VolumePath.parse at h
  cases hn : namesFile operand.toList with
  | true => simp [hn, Except.map] at h
  | false =>
      simp only [hn, if_true, Bool.false_eq_true, if_false, Except.map, Except.error.injEq] at h
      exact h.symm

theorem read_locator_error (h : Target.read operand port false = .error e) :
    ∃ c : Locator.Complaint, e = ⟨.parse, operand, { root := c.message }⟩ := by
  rw [Target.read, if_neg Bool.false_ne_true, Locator.parse] at h
  cases hr : Locator.read operand (port.getD Port.standard) with
  | ok u =>
      rw [hr] at h
      cases h
  | error c =>
      rw [hr] at h
      cases h
      exact ⟨c, rfl⟩

theorem read_error_kind {connected : Bool} (h : Target.read operand port connected = .error e) :
    e.kind = .parse := by
  cases connected with
  | true => rw [read_path_error h]
  | false =>
      obtain ⟨c, rfl⟩ := read_locator_error h
      rfl

theorem read_path_ok {target : Target} (h : Target.read operand port true = .ok target) :
    ∃ path, target = .path path ∧ VolumePath.parse operand = .ok path := by
  unfold Target.read at h
  cases hp : VolumePath.parse operand with
  | error e => simp [hp, Except.map] at h
  | ok path =>
      simp only [hp, if_true, Except.map, Except.ok.injEq] at h
      exact ⟨path, h.symm, rfl⟩

/-- What names a file in one mode does not in the other. -/
theorem read_ne_ok {target : Target} (h : Target.read operand port true = .ok target)
    (target' : Target) : Target.read operand port false ≠ .ok target' := by
  intro h'
  obtain ⟨path, -, hpath⟩ := read_path_ok h
  obtain ⟨url, -, hurl⟩ := read_locator h'
  exact Locator.parse_ne_ok_of_path hpath _ url hurl

end Target

/-- Of one text, different reasons are told differently. -/
theorem explain_root_injective {raw reason reason' : String}
    (h : explain ⟨.parse, raw, { root := reason }⟩ = explain ⟨.parse, raw, { root := reason' }⟩) :
    reason = reason' := by
  have hroot (text : String) : ({ root := text } : Chain).message = text := by
    simp [Chain.message, Chain.texts]
  simpa [explain, Error.message, hroot, String.append_assoc] using h

/-! ## Settings -/

variable {s : Settings}

theorem ofSettings_error_kind {connected : Bool} {e : Error}
    (h : ofSettings s connected = .error e) : e.kind = .parse := by
  unfold ofSettings at h
  cases hd : Directive.parseAll s.options with
  | error e' =>
      simp only [hd, Except.error.injEq] at h
      exact h ▸ Directive.parseAll_error_kind hd
  | ok ds =>
      cases ht : Target.read s.operand s.port connected with
      | error e' =>
          simp only [hd, ht, Except.error.injEq] at h
          exact h ▸ Target.read_error_kind ht
      | ok target => simp [hd, ht] at h

/-- A directive that is none is found in both modes, and before the operand is looked at. -/
theorem ofSettings_of_no_directive {raw : String} (hm : raw ∈ s.options)
    (hraw : ¬∃ d, Directive.parse raw = .ok d) (connected connected' : Bool) :
    ofSettings s connected = ofSettings s connected' := by
  unfold ofSettings
  cases hd : Directive.parseAll s.options with
  | error e => rfl
  | ok ds =>
      have hmem : Directive.parse raw ∈ ds.map .ok :=
        Directive.map_parse_of_parseAll hd ▸ List.mem_map_of_mem hm
      obtain ⟨d, -, hparse⟩ := List.mem_map.mp hmem
      exact absurd ⟨d, hparse.symm⟩ hraw

/-- Where the operand is looked at, the modes come to something else. -/
theorem ofSettings_explain_ne (h : ∀ raw ∈ s.options, ∃ d, Directive.parse raw = .ok d) :
    (ofSettings s true).mapError explain ≠ (ofSettings s false).mapError explain := by
  obtain ⟨ds, hds, -⟩ := Directive.exists_parseAll h
  unfold ofSettings
  rw [hds]
  cases hp : Target.read s.operand s.port true with
  | ok target =>
      cases hl : Target.read s.operand s.port false with
      | error e => nofun
      | ok target' => exact absurd hl (Target.read_ne_ok hp target')
  | error e =>
      cases hl : Target.read s.operand s.port false with
      | ok target' => nofun
      | error e' =>
          obtain rfl := Target.read_path_error hp
          obtain ⟨c, rfl⟩ := Target.read_locator_error hl
          intro he
          exact c.message_ne (explain_root_injective (Except.error.inj he)).symm

/-! ## Command lines -/

theorem mapError_mapError {ε ε' ε'' α : Type} (f : ε → ε') (g : ε' → ε'') (r : Except ε α) :
    (r.mapError f).mapError g = r.mapError fun e => g (f e) := by
  cases r <;> rfl

variable {words : List Text.Glyphs}

/-- What is shown instead of a command is shown before the operand is looked at: help or the
version is asked for, the command line is refused, or one of its directives is none. -/
def EndsEarly (words : List Text.Glyphs) : Prop :=
  (∃ e, CommandLine.read (words.drop 1) = .error e) ∨
    ∃ s, CommandLine.read (words.drop 1) = .ok s ∧
      ∃ raw ∈ s.options, ¬∃ d, Directive.parse raw = .ok d

theorem parse_modes_eq_iff : parse words true = parse words false ↔ EndsEarly words := by
  cases hr : CommandLine.read (words.drop 1) with
  | error e =>
      refine ⟨fun _ => .inl ⟨e, hr⟩, fun _ => ?_⟩
      unfold parse
      rw [hr]
      cases e <;> rfl
  | ok s =>
      rw [parse_of_read true hr, parse_of_read false hr]
      constructor
      · intro he
        refine .inr ⟨s, hr, Classical.byContradiction fun hno => ?_⟩
        have hvalid (raw : String) (hm : raw ∈ s.options) : ∃ d, Directive.parse raw = .ok d :=
          Classical.byContradiction fun hraw => hno ⟨raw, hm, hraw⟩
        refine ofSettings_explain_ne hvalid ?_
        have h := congrArg (Except.mapError fun e => e.2.stderr) he
        rwa [mapError_mapError, mapError_mapError] at h
      · rintro (⟨e, he⟩ | ⟨s', hs', raw, hm, hraw⟩)
        · cases hr.symm.trans he
        · cases hr.symm.trans hs'
          rw [ofSettings_of_no_directive hm hraw true false]

theorem parse_error_kind {connected : Bool} {kind : ErrorKind} {shown : Shown}
    (h : parse words connected = .error (.failure kind, shown)) :
    kind = .usage ∨ kind = .parse := by
  cases hr : CommandLine.read (words.drop 1) with
  | error e =>
      unfold parse at h
      rw [hr] at h
      cases e with
      | help => cases h
      | version => cases h
      | refused r =>
          cases h
          cases r <;> simp [Refusal.kind]
  | ok s =>
      rw [parse_of_read connected hr] at h
      cases hs : ofSettings s connected with
      | ok c =>
          rw [hs] at h
          cases h
      | error e =>
          rw [hs] at h
          cases h
          exact .inr (ofSettings_error_kind hs)

/-- The target of a command is of the mode that the command line was read for. -/
theorem target_of_parse {connected : Bool} {c : Command} (h : parse words connected = .ok c) :
    (connected = true ∧ ∃ path, c.target = .path path) ∨
      (connected = false ∧ ∃ url, c.target = .locator url) := by
  obtain ⟨s, -, hs⟩ := exists_settings_of_parse h
  have ht := (ofSettings_eq_ok hs).2.1
  cases connected with
  | true =>
      obtain ⟨path, hpath, -⟩ := Target.read_path_ok ht
      exact .inl ⟨rfl, path, hpath⟩
  | false =>
      obtain ⟨url, hurl, -⟩ := Target.read_locator ht
      exact .inr ⟨rfl, url, hurl⟩

/-! ## Contexts -/

variable {σ V F : Type}

theorem suits_iff {c : Command} {ctx : Context V} :
    c.Suits ctx ↔ (∃ v path, ctx.session = some v ∧ c.target = .path path) ∨
      ∃ url, ctx.session = none ∧ c.target = .locator url := by
  unfold Suits
  cases ctx.session <;> cases c.target <;> simp

theorem suits_iff_of_parse {connected : Bool} {c : Command}
    (h : parse words connected = .ok c) (ctx : Context V) :
    c.Suits ctx ↔ connected = ctx.session.isSome := by
  rw [suits_iff]
  rcases target_of_parse h with ⟨rfl, path, ht⟩ | ⟨rfl, url, ht⟩ <;>
    cases ctx.session <;> simp [ht]

/-- A command that suits its context copies its file, by itself or within the caller's session. -/
theorem carryOut_of_suits (p : Provider σ V F) {c : Command} {ctx : Context V} (h : c.Suits ctx)
    (w : World σ) :
    (∃ v path, ctx.session = some v ∧ c.target = .path path ∧
        c.carryOut p ctx w = c.copyWithin p path v ctx w) ∨
      ∃ url, ctx.session = none ∧ c.target = .locator url ∧
        c.carryOut p ctx w = c.copyAlone p url ctx w := by
  rcases suits_iff.mp h with ⟨v, path, hs, ht⟩ | ⟨url, hs, ht⟩
  · exact .inl ⟨v, path, hs, ht, by rw [carryOut, hs, ht]⟩
  · exact .inr ⟨url, hs, ht, by rw [carryOut, hs, ht]⟩

/-- A command line is a command in one mode at most, and the modes differ in nothing but the
operand. A command that was read for the other mode does nothing and fails; an invocation reads its
command line as its context asks for, and so it always gets to the copy. -/
theorem invoke_modes (p : Provider σ V F) (words : List Text.Glyphs) (ctx : Context V)
    (w : World σ) :
    (∀ c c', parse words true = .ok c → parse words false ≠ .ok c') ∧
    (parse words true = parse words false ↔ EndsEarly words) ∧
    (∀ connected kind shown, parse words connected = .error (.failure kind, shown) →
      kind = .usage ∨ kind = .parse) ∧
    (∀ connected c, parse words connected = .ok c →
      (c.Suits ctx ↔ connected = ctx.session.isSome)) ∧
    (∀ c : Command, ¬c.Suits ctx →
      (c.execute p ctx w).1 = .failure .parse ∧ (c.execute p ctx w).2.recorded = w.recorded ∧
        (c.execute p ctx w).2.state = w.state ∧ (c.execute p ctx w).2.sink = w.sink) ∧
    (∀ e, parse words ctx.session.isSome = .error e → invoke p words ctx w = (e.1, e.2, w)) ∧
    ∀ c, parse words ctx.session.isSome = .ok c →
      invoke p words ctx w = ((c.execute p ctx w).1, {}, (c.execute p ctx w).2) ∧
      ((∃ v path, ctx.session = some v ∧ c.target = .path path ∧
          c.carryOut p ctx w = c.copyWithin p path v ctx w) ∨
        ∃ url, ctx.session = none ∧ c.target = .locator url ∧
          c.carryOut p ctx w = c.copyAlone p url ctx w) := by
  refine ⟨fun c c' hc hc' => ?_, parse_modes_eq_iff, fun _ _ _ h => parse_error_kind h,
    fun _ _ h => suits_iff_of_parse h ctx, fun c hc => ?_, fun e he => ?_, fun c hc => ⟨?_, ?_⟩⟩
  · obtain ⟨s, hs, hpath⟩ := exists_settings_of_parse hc
    obtain ⟨s', hs', hurl⟩ := exists_settings_of_parse hc'
    cases hs.symm.trans hs'
    exact Target.read_ne_ok (ofSettings_eq_ok hpath).2.1 _ (ofSettings_eq_ok hurl).2.1
  · obtain ⟨message, he⟩ := c.execute_of_not_suits p hc w
    rw [he]
    exact ⟨rfl, w.recorded_report _ message, rfl, rfl⟩
  · rw [invoke, run, he]
  · rw [invoke, run, hc]
  · exact carryOut_of_suits p ((suits_iff_of_parse hc ctx).mpr rfl) w

/-- A path is asked for without a session: read for a session it is a command that does nothing, and
an invocation does not read it so. -/
theorem invoke_modes_path :
    let words := ["gfcat", "/file"].map Text.Glyphs.ofString
    let c : Command := ⟨.path ⟨"/file"⟩, [], false, "/file"⟩
    let ctx : Context Unit := { session := some () }
    let w : World Memory.State := { state := { files := [("/file", #[1, 2, 3])] } }
    parse words true = .ok c ∧ ¬EndsEarly words ∧
      ¬c.Suits ({} : Context Unit) ∧
      (c.execute Memory.provider {} w).1 = .failure .parse ∧
      (c.execute Memory.provider {} w).2.recorded = [] ∧
      (∃ shown, parse words false = .error (.failure .parse, shown) ∧
        invoke Memory.provider words {} w = (.failure .parse, shown, w)) ∧
      invoke Memory.provider words ctx w =
        ((c.execute Memory.provider ctx w).1, {}, (c.execute Memory.provider ctx w).2) ∧
      c.carryOut Memory.provider ctx w = c.copyWithin Memory.provider ⟨"/file"⟩ () ctx w := by
  intro words c ctx w
  have hc : parse words true = .ok c := rfl
  obtain ⟨honce, hsame, -, hsuits, hidle, herror, -⟩ :=
    invoke_modes Memory.provider words ({} : Context Unit) w
  have hn : ¬c.Suits ({} : Context Unit) := fun h => Bool.noConfusion ((hsuits true c hc).mp h)
  have hlate : ¬EndsEarly words := fun h => honce c c hc ((hsame.mpr h).symm.trans hc)
  obtain ⟨hinvoke, hcopy⟩ := (invoke_modes Memory.provider words ctx w).2.2.2.2.2.2 c hc
  have hwithin : c.carryOut Memory.provider ctx w =
      c.copyWithin Memory.provider ⟨"/file"⟩ () ctx w := by
    rcases hcopy with ⟨v, path, -, ht, h⟩ | ⟨url, hs, -⟩
    · cases ht
      exact h
    · cases hs
  exact ⟨hc, hlate, hn, (hidle c hn).1, (hidle c hn).2.1, ⟨_, rfl, herror _ rfl⟩, hinvoke, hwithin⟩

end Command

end LockedCat
