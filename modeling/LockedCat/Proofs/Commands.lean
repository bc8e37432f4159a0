import LockedCat.Command
import LockedCat.Proofs.ArgumentGroups
import LockedCat.Proofs.Directives
import LockedCat.Proofs.LocatorForms

/-!
# Commands from command lines

What a command line stands for once it has been read. Main statement: the command, or the fault
that is shown instead of it, depends only on what the groups of the command line say. Of several
faults the first directive that is none comes before the operand.
-/

namespace LockedCat

/-! ## Directives -/

namespace Directive

theorem map_parse_of_parseAll {raws : List String} {ds : List Directive}
    (h : parseAll raws = .ok ds) : raws.map parse = ds.map .ok := by
  induction raws generalizing ds with
  | nil => cases h; rfl
  | cons raw rest ih =>
      simp only [parseAll] at h
      cases hd : parse raw with
      | error e => simp [hd] at h
      | ok d =>
          cases hr : parseAll rest with
          | error e => simp [hd, hr, Except.map] at h
          | ok more =>
              simp only [hd, hr, Except.map, Except.ok.injEq] at h
              subst h
              simp [hd, ih hr]

theorem exists_parseAll {raws : List String} (h : ∀ raw ∈ raws, ∃ d, parse raw = .ok d) :
    ∃ ds, parseAll raws = .ok ds ∧ ds.map display = raws := by
  induction raws with
  | nil => exact ⟨[], rfl, rfl⟩
  | cons raw rest ih =>
      obtain ⟨d, hd⟩ := h raw (List.mem_cons_self ..)
      obtain ⟨ds, hds, hdisplay⟩ := ih fun r hr => h r (List.mem_cons_of_mem raw hr)
      refine ⟨d :: ds, by simp [parseAll, hd, hds, Except.map], ?_⟩
      rw [List.map_cons, display_of_parse hd, hdisplay]

theorem parseAll_error_kind {raws : List String} {e : Error}
    (h : parseAll raws = .error e) : e.kind = .parse := by
  induction raws with
  | nil => cases h
  | cons raw rest ih =>
      rw [parseAll] at h
      cases hd : Directive.parse raw with
      | error e' =>
          rw [hd] at h
          cases h
          exact (parse_error hd).1
      | ok d =>
          rw [hd] at h
          cases hr : parseAll rest with
          | ok ds => simp [hr, Except.map] at h
          | error e' =>
              simp only [hr, Except.map, Except.error.injEq] at h
              exact ih (h ▸ hr)

/-- Directives are read up to the first that is none. -/
theorem parseAll_error {before after : List String} {raw : String} {e : Error}
    (hb : ∀ r ∈ before, ∃ d, parse r = .ok d) (he : parse raw = .error e) :
    parseAll (before ++ raw :: after) = .error e := by
  induction before with
  | nil => simp [parseAll, he]
  | cons r rest ih =>
      obtain ⟨d, hd⟩ := hb r (List.mem_cons_self ..)
      have hrest := ih fun r' hr => hb r' (List.mem_cons_of_mem r hr)
      simp [parseAll, hd, hrest, Except.map]

end Directive

/-! ## Settings -/

namespace Command

open CommandLine

theorem parse_of_read {words : List Text.Glyphs} {s : Settings} (connected : Bool)
    (h : CommandLine.read (words.drop 1) = .ok s) :
    parse words connected =
      (ofSettings s connected).mapError fun e => (.failure e.kind, { stderr := explain e }) := by
  rw [parse, h]
  cases hs : ofSettings s connected with
  | error e => simp only [hs]; rfl
  | ok c => simp only [hs]; rfl

theorem exists_settings_of_parse {words : List Text.Glyphs} {connected : Bool} {c : Command}
    (h : parse words connected = .ok c) :
    ∃ settings, CommandLine.read (words.drop 1) = .ok settings ∧
      ofSettings settings connected = .ok c := by
  unfold parse at h
  cases hr : CommandLine.read (words.drop 1) with
  | error e => cases e <;> simp only [hr, reduceCtorEq] at h
  | ok settings =>
      cases hs : ofSettings settings connected with
      | error e => simp only [hr, hs, reduceCtorEq] at h
      | ok c' =>
          simp only [hr, hs, Except.ok.injEq] at h
          exact ⟨settings, rfl, by rw [hs, h]⟩

/-- Whatever is shown instead of a command, nothing was copied. -/
theorem ne_success_of_parse {words : List Text.Glyphs} {connected : Bool} {e : Outcome × Shown}
    (h : parse words connected = .error e) : e.1 ≠ .success := by
  unfold parse at h
  split at h
  · cases h
    nofun
  · cases h
    nofun
  · cases h
    nofun
  · split at h
    · cases h
      nofun
    · cases h

theorem ofSettings_eq_ok {s : CommandLine.Settings} {connected : Bool} {c : Command}
    (h : ofSettings s connected = .ok c) :
    s.options.map Directive.parse = c.directives.map .ok ∧
      Target.read s.operand s.port connected = .ok c.target ∧ c.debug = s.debug ∧
      c.operand = s.operand := by
  unfold ofSettings at h
  cases hd : Directive.parseAll s.options with
  | error e => simp [hd] at h
  | ok ds =>
      cases ht : Target.read s.operand s.port connected with
      | error e => simp [hd, ht] at h
      | ok target =>
          simp only [hd, ht, Except.ok.injEq] at h
          subst h
          exact ⟨Directive.map_parse_of_parseAll hd, rfl, rfl, rfl⟩

theorem Target.read_locator {operand : String} {port : Option UInt16} {target : Target}
    (h : Target.read operand port false = .ok target) :
    ∃ url, target = .locator url ∧ Locator.parse operand (port.getD Port.standard) = .ok url := by
  unfold Target.read at h
  cases hl : Locator.parse operand (port.getD Port.standard) with
  | error e => simp [hl, Except.map] at h
  | ok url =>
      simp only [hl, Except.map, Bool.false_eq_true, if_false, Except.ok.injEq] at h
      exact ⟨url, h.symm, rfl⟩

/-! ## Faults -/

/-- All that is shown is a diagnostic that names this text. -/
def Names (shown : Shown) (text : String) : Prop :=
  shown.stdout = "" ∧ ∃ reason, shown.stderr =
    "gfcat: " ++ text ++ ": " ++ reason ++ "\nTry 'gfcat --help' for more information.\n"

theorem names_explain (e : Error) : Names { stderr := explain e } e.subject :=
  ⟨rfl, e.cause.message, by simp [explain, commandName, Error.message, String.append_assoc]⟩

/-- An operand that names a file on the volume of a session. -/
def IsPath (operand : String) : Prop :=
  operand.toList.head? = some '/' ∧ ∃ c ∈ operand.toList, c ≠ '/'

theorem Target.read_path {operand : String} (port : Option UInt16) (h : IsPath operand) :
    Target.read operand port true = .ok (.path ⟨operand⟩) := by
  simp [Target.read, VolumePath.parse, Locator.namesFile_iff.mpr h, Except.map]

theorem Target.read_no_path {operand : String} (port : Option UInt16) (h : ¬IsPath operand) :
    ∃ e, Target.read operand port true = .error e ∧ e.kind = .parse ∧ e.subject = operand := by
  have hnames : namesFile operand.toList = false :=
    Bool.eq_false_iff.mpr fun hn => h (Locator.namesFile_iff.mp hn)
  refine ⟨⟨.parse, operand, { root := VolumePath.complaint }⟩, ?_, rfl, rfl⟩
  simp [Target.read, VolumePath.parse, hnames, Except.map]

theorem Target.read_form {operand : String} (port : Option UInt16) {f : Locator.Form}
    (h : f.chars = operand.toList) :
    Target.read operand port false = .ok (.locator (f.locator (port.getD Port.standard))) := by
  simp [Target.read, Locator.parse_eq_ok_iff.mpr ⟨f, h, rfl⟩, Except.map]

theorem Target.read_no_form {operand : String} (port : Option UInt16)
    (h : ¬∃ f : Locator.Form, f.chars = operand.toList) :
    ∃ e, Target.read operand port false = .error e ∧ e.kind = .parse ∧ e.subject = operand := by
  cases hl : Locator.parse operand (port.getD Port.standard) with
  | error e => exact ⟨e, by simp [Target.read, hl, Except.map], Locator.parse_error hl⟩
  | ok u =>
      obtain ⟨f, hf, -⟩ := Locator.parse_eq_ok_iff.mp hl
      exact absurd ⟨f, hf⟩ h

/-! ## Command lines -/

/-- A command line: groups in any order, the flags for debugging and for the port once at most,
and one operand. -/
structure Line where
  groups : List Group
  debug_once : groups.countP (·.slot = .flag .debug) ≤ 1
  port_once : groups.countP (·.slot = .flag .port) ≤ 1
  operand : String
  operand_once : groups.filterMap Group.operand? = [operand]

namespace Line

/-- The words of a command line after the name of the program. -/
def words (line : Line) (program : Text.Glyphs) : List Text.Glyphs :=
  program :: (line.groups.flatMap Group.words).map .ofString

theorem countP_operand (gs : List Group) :
    gs.countP (·.slot = .operand) = (gs.filterMap Group.operand?).length := by
  rw [List.length_filterMap_eq_countP]
  refine List.countP_congr fun g _ => ?_
  cases g <;> simp [Group.slot, Group.operand?]

theorem compatible (line : Line) : Compatible line.groups := by
  intro g _ hs
  cases g with
  | debug => exact line.debug_once
  | port => exact line.port_once
  | option => cases hs
  | operand =>
      have hcount := countP_operand line.groups
      rw [line.operand_once, List.length_singleton] at hcount
      exact Nat.le_of_eq hcount

theorem read_words (line : Line) (program : Text.Glyphs) :
    CommandLine.read ((line.words program).drop 1) =
      .ok ⟨debugOf line.groups, portOf line.groups, optionsOf line.groups, line.operand⟩ :=
  read_groups line.compatible (by simp [operandOf, line.operand_once])

/-- The command says what the command line says. -/
structure Describes (line : Line) (c : Command) : Prop where
  debug : c.debug = debugOf line.groups
  directives : c.directives.map Directive.display = optionsOf line.groups
  operand : c.operand = line.operand

end Line

/-- A command line whose directives are all right stands for a command, or its operand is at
fault. -/
theorem parse_ok {line : Line} {program : Text.Glyphs} {connected : Bool} {target : Target}
    (hvalid : ∀ raw ∈ optionsOf line.groups, ∃ d, Directive.parse raw = .ok d)
    (ht : Target.read line.operand (portOf line.groups) connected = .ok target) :
    ∃ c, parse (line.words program) connected = .ok c ∧ line.Describes c ∧ c.target = target := by
  obtain ⟨ds, hds, hdisplay⟩ := Directive.exists_parseAll hvalid
  refine ⟨⟨target, ds, debugOf line.groups, line.operand⟩, ?_, ⟨rfl, hdisplay, rfl⟩, rfl⟩
  rw [parse_of_read connected (line.read_words program), ofSettings, hds, ht]
  rfl

theorem parse_operand_error {line : Line} {program : Text.Glyphs} {connected : Bool} {e : Error}
    (hvalid : ∀ raw ∈ optionsOf line.groups, ∃ d, Directive.parse raw = .ok d)
    (ht : Target.read line.operand (portOf line.groups) connected = .error e)
    (he : e.kind = .parse ∧ e.subject = line.operand) :
    ∃ shown, parse (line.words program) connected = .error (.failure .parse, shown) ∧
      Names shown line.operand := by
  obtain ⟨ds, hds, -⟩ := Directive.exists_parseAll hvalid
  refine ⟨{ stderr := explain e }, ?_, he.2 ▸ names_explain e⟩
  rw [parse_of_read connected (line.read_words program), ofSettings, hds, ht, ← he.1]
  rfl

theorem parse_directive_error {line : Line} {program : Text.Glyphs} {connected : Bool}
    {before after : List String} {raw : String}
    (hoptions : optionsOf line.groups = before ++ raw :: after)
    (hbefore : ∀ r ∈ before, ∃ d, Directive.parse r = .ok d)
    (hraw : ¬∃ d, Directive.parse raw = .ok d) :
    ∃ shown, parse (line.words program) connected = .error (.failure .parse, shown) ∧
      Names shown raw := by
  cases he : Directive.parse raw with
  | ok d => exact absurd ⟨d, he⟩ hraw
  | error e =>
      obtain ⟨hkind, hsubject⟩ := Directive.parse_error he
      refine ⟨{ stderr := explain e }, ?_, hsubject ▸ names_explain e⟩
      rw [parse_of_read connected (line.read_words program), ofSettings, hoptions,
        Directive.parseAll_error hbefore he, ← hkind]
      rfl

/-- What a command line stands for, and what is shown if it stands for nothing, is said by its
groups alone, in whatever order and manner they are written. -/
theorem parse_line (line : Line) (program : Text.Glyphs) (connected : Bool) :
    (∀ before raw after, optionsOf line.groups = before ++ raw :: after →
      (∀ r ∈ before, ∃ d, Directive.parse r = .ok d) → (¬∃ d, Directive.parse raw = .ok d) →
      ∃ shown, parse (line.words program) connected = .error (.failure .parse, shown) ∧
        Names shown raw) ∧
    ((∀ raw ∈ optionsOf line.groups, ∃ d, Directive.parse raw = .ok d) →
      ((if connected then ¬IsPath line.operand
          else ¬∃ f : Locator.Form, f.chars = line.operand.toList) →
        ∃ shown, parse (line.words program) connected = .error (.failure .parse, shown) ∧
          Names shown line.operand) ∧
      (connected = true → IsPath line.operand →
        ∃ c, parse (line.words program) connected = .ok c ∧ line.Describes c ∧
          c.target = .path ⟨line.operand⟩) ∧
      (connected = false → ∀ f : Locator.Form, f.chars = line.operand.toList →
        ∃ c, parse (line.words program) connected = .ok c ∧ line.Describes c ∧
          c.target = .locator (f.locator ((portOf line.groups).getD 24007)))) ∧
    ∀ (line' : Line) (program' : Text.Glyphs), debugOf line'.groups = debugOf line.groups →
      optionsOf line'.groups = optionsOf line.groups → line'.operand = line.operand →
      (connected = false → portOf line'.groups = portOf line.groups) →
      parse (line'.words program') connected = parse (line.words program) connected := by
  refine ⟨fun _ _ _ hoptions hbefore hraw => parse_directive_error hoptions hbefore hraw,
    fun hvalid => ⟨fun hfault => ?_, fun hc hpath => ?_, fun hc f hf => ?_⟩,
    fun line' program' hdebug hoptions hoperand hport => ?_⟩
  · cases connected with
    | true =>
        obtain ⟨e, ht, he⟩ := Target.read_no_path (portOf line.groups) hfault
        exact parse_operand_error hvalid ht he
    | false =>
        obtain ⟨e, ht, he⟩ := Target.read_no_form (portOf line.groups) hfault
        exact parse_operand_error hvalid ht he
  · subst hc
    exact parse_ok hvalid (Target.read_path _ hpath)
  · subst hc
    exact parse_ok hvalid (Target.read_form _ hf)
  · have hread := line.read_words program
    have hread' := line'.read_words program'
    rw [hdebug, hoptions, hoperand] at hread'
    rw [parse_of_read connected hread, parse_of_read connected hread']
    cases connected with
    | true => rfl
    | false => rw [hport rfl]

end Command

end LockedCat
