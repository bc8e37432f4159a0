import LockedCat.Proofs.Agreement
import LockedCat.Proofs.Export.Destinations
import LockedCat.Proofs.Export.Holdings
import Mathlib.Data.List.Nodup

/-!
# Overrides

The options of a session are a matter of the directives that were set on it, in their order, and of
nothing else that is done to the export. Main statement: whatever else happens between the
directives, the options have each key once, in the place of the first directive for it and with the
value of the last, and two sessions agree on every option exactly when the last directives for every
key do.
-/

namespace LockedCat.Export

/-! ## The law -/

namespace Volume

/-- The options of the session are what these directives make of none. -/
structure Follows (x : Volume) (ds : List Directive) : Prop where
  keys : x.options.map Prod.fst = (ds.map Directive.key).eraseDups
  distinct : (x.options.map Prod.fst).Nodup
  mem : ∀ key value, (key, value) ∈ x.options ↔ lastValue? ds key = some value
  option : ∀ key, x.option? key = lastValue? ds key
  last : ∀ before d after, ds = before ++ d :: after → (∀ e ∈ after, e.key ≠ d.key) →
    (d.key, d.value) ∈ x.options ∧ x.option? d.key = some d.value
  unset : ∀ key, x.option? key = none ↔ ∀ d ∈ ds, d.key ≠ key

variable {x y : Volume} {ds es : List Directive} {key value : String}

theorem lastValue?_eq_none_iff : lastValue? ds key = none ↔ ∀ d ∈ ds, d.key ≠ key := by
  simp [lastValue?]

/-- The last directive for a key is followed by directives for other keys. -/
theorem lastValue?_eq_some_iff :
    lastValue? ds key = some value ↔
      ∃ before d after, ds = before ++ d :: after ∧ d.key = key ∧ d.value = value ∧
        ∀ e ∈ after, e.key ≠ key := by
  unfold lastValue?
  constructor
  · intro h
    obtain ⟨d, hd, rfl⟩ := Option.map_eq_some_iff.mp h
    obtain ⟨hkey, after, before, hds, hafter⟩ := List.find?_eq_some_iff_append.mp hd
    refine ⟨before.reverse, d, after.reverse, ?_, by simpa using hkey, rfl, by simpa using hafter⟩
    rw [← List.reverse_reverse ds, hds]
    simp
  · rintro ⟨before, d, after, rfl, rfl, rfl, hafter⟩
    refine Option.map_eq_some_iff.mpr ⟨d, List.find?_eq_some_iff_append.mpr
      ⟨by simp, after.reverse, before.reverse, by simp, by simpa using hafter⟩, rfl⟩

theorem nodup_eraseDups (keys : List String) : keys.eraseDups.Nodup := by
  induction keys using List.reverseRecOn with
  | nil => exact .nil
  | append_singleton keys key ih =>
      rw [eraseDups_concat]
      split
      · exact ih
      · rename_i hnew
        have hnot : key ∉ keys.eraseDups := by simpa using hnew
        exact List.nodup_append.mpr ⟨ih, List.nodup_singleton key, by
          rintro k hk _ hkey rfl
          exact hnot (List.mem_singleton.mp hkey ▸ hk)⟩

/-- Where each key is there once, the pair that is found for a key is the only one. -/
theorem mem_iff_find?_eq_some {options : List (String × String)}
    (h : (options.map Prod.fst).Nodup) :
    (key, value) ∈ options ↔ (options.find? (·.1 = key)).map Prod.snd = some value := by
  induction options with
  | nil => simp
  | cons x rest ih =>
      obtain ⟨k, old⟩ := x
      rw [List.map_cons, List.nodup_cons] at h
      by_cases hk : k = key
      · have hrest : (key, value) ∉ rest := fun hm => h.1 (List.mem_map.mpr ⟨_, hm, hk.symm⟩)
        simp [hk, hrest, eq_comm]
      · have hk' : key ≠ k := Ne.symm hk
        simp [hk, hk', ih h.2]

theorem follows_of_settled (h : x.options = settled ds) : x.Follows ds := by
  have hkeys : x.options.map Prod.fst = (ds.map Directive.key).eraseDups := by
    rw [h, keys_settled]
  have hdistinct : (x.options.map Prod.fst).Nodup := by
    rw [hkeys]
    exact nodup_eraseDups _
  have hmem (key value : String) : (key, value) ∈ x.options ↔ lastValue? ds key = some value := by
    rw [mem_iff_find?_eq_some hdistinct, h, find?_settled]
  have hoption (key : String) : x.option? key = lastValue? ds key := by
    rw [option?, h]
    exact find?_settled ds key
  refine ⟨hkeys, hdistinct, hmem, hoption, fun before d after hds hafter => ?_, fun key => ?_⟩
  · have hlast : lastValue? ds d.key = some d.value :=
      lastValue?_eq_some_iff.mpr ⟨before, d, after, hds, rfl, rfl, hafter⟩
    exact ⟨(hmem _ _).mpr hlast, (hoption _).trans hlast⟩
  · rw [hoption, lastValue?_eq_none_iff]

namespace Follows

/-- Two sessions have the same options, in whatever order, exactly when the last directives for
every key say the same. -/
theorem perm_iff (h : x.Follows ds) (h' : y.Follows es) :
    x.options.Perm y.options ↔ ∀ key, lastValue? ds key = lastValue? es key := by
  rw [List.perm_ext_iff_of_nodup (h.distinct.of_map _) (h'.distinct.of_map _)]
  constructor
  · intro hall key
    refine Option.ext fun value => ?_
    rw [← h.mem, ← h'.mem]
    exact hall (key, value)
  · rintro hall ⟨key, value⟩
    rw [h.mem, h'.mem, hall]

theorem option?_eq_iff (h : x.Follows ds) (h' : y.Follows es) :
    (∀ key, x.option? key = y.option? key) ↔ ∀ key, lastValue? ds key = lastValue? es key := by
  simp only [h.option, h'.option]

end Follows

end Volume

/-! ## Directives of a session -/

def Move.directive? (v : Nat) : Move → Option Directive
  | setOption u d => if u = v then some d else none
  | _ => none

/-- The directive that is set on a session, if that is what is done. -/
def Deed.directive? (v : Nat) : Deed → Option Directive
  | move m => m.directive? v
  | _ => none

theorem filterMap_cons_toList {α β : Type} (f : α → Option β) (a : α) (as : List α) :
    (a :: as).filterMap f = (f a).toList ++ as.filterMap f := by
  cases h : f a <;> simp [h]

namespace State

variable {s s' : State} {w : World State} {u v : Nat} {ds : List Directive}

/-- A session takes every directive that is set on it. -/
theorem directives_happening? {x : Volume} (hv : s.volume? v = some x) (m : Move) :
    History.directives (s.happening? m).toList v = (m.directive? v).toList := by
  cases m with
  | setOption u d =>
      cases hu : s.volume? u with
      | none =>
          have hne : u ≠ v := by
            rintro rfl
            rw [hv] at hu
            cases hu
          simp [happening?, setOption, hu, unknown, History.directives, Move.directive?, hne]
      | some y =>
          simp only [happening?, (setOption_ok hu d).1]
          by_cases he : u = v <;>
            simp [History.directives, Happening.directive?, Move.directive?, he]
  | setLogging | openFile =>
      simp only [happening?]
      repeat' split
      all_goals rfl
  | read | drop | put | remove => rfl
  | _ =>
      simp only [happening?]
      split <;> rfl

/-- These directives were set on the session since it began. -/
def Configured (s : State) (v : Nat) (ds : List Directive) : Prop :=
  ∃ x, s.volume? v = some x ∧ x.options = Volume.settled ds

namespace Configured

theorem congr (h : s.Configured v ds) (hv : s'.volumes = s.volumes) : s'.Configured v ds := by
  unfold Configured volume? at h ⊢
  rwa [hv]

theorem lt (h : s.Configured v ds) : v < s.volumes.length := by
  obtain ⟨x, hx, -⟩ := h
  exact (List.getElem?_eq_some_iff.mp hx).1

/-- A session that begins has no options. -/
theorem of_connect {url : Locator} (h : (s.connect url).result = .ok v) :
    (s.connect url).state.Configured v [] := by
  rcases s.connect_eq url with ⟨c, he⟩ | ⟨-, -, ho⟩
  · rw [he] at h
    cases h
  · rw [ho] at h ⊢
    cases h
    refine ⟨{ brick := Path.join s.root url.volume, name := url.volume }, ?_, rfl⟩
    simp [volume?]

/-- A directive that is set on the session counts, and no other move does. -/
theorem step (h : s.Configured v ds) (m : Move) :
    (s.step m).Configured v (ds ++ (m.directive? v).toList) := by
  obtain ⟨x, hx, hoptions⟩ := h
  have hserves : s.Serves v x.brick x.name := ⟨x, hx, rfl, rfl⟩
  obtain ⟨y, hy, -⟩ := hserves.step m
  have hs : ((s.volume? v).map Volume.options).getD [] = Volume.settled ds := by
    rw [hx, ← hoptions]
    rfl
  have hturn := (s.turns_step m).options hs
  rw [hy, directives_happening? hx] at hturn
  exact ⟨y, hy, hturn⟩

theorem run (h : s.Configured v ds) (ms : List Move) :
    (s.run ms).Configured v (ds ++ ms.filterMap (·.directive? v)) := by
  induction ms generalizing s ds with
  | nil => rwa [List.filterMap_nil, List.append_nil]
  | cons m rest ih =>
      have hrest : (s.run (m :: rest)).Configured v _ := ih (h.step m)
      rwa [List.append_assoc, ← filterMap_cons_toList] at hrest

/-- Moves that set no directive on the session leave its options as they are. -/
theorem run_of_none (h : s.Configured v ds) {ms : List Move}
    (hms : ∀ m ∈ ms, m.directive? v = none) : (s.run ms).Configured v ds := by
  have hrun := h.run ms
  rwa [List.filterMap_eq_nil_iff.mpr hms, List.append_nil] at hrun

end Configured

/-! ## Copies and commands -/

/-- A copy sets nothing. -/
theorem copy_run (u : Nat) (path target : String) (chunk : Nat) (w : World State) :
    ∃ ms, (Copy.copy provider u path target chunk w).2.state = w.state.run ms ∧
      ∀ m ∈ ms, ∀ v, m.directive? v = none := by
  obtain ⟨as, ha, ht⟩ := copy_trace provider u path target chunk w
  refine ⟨as.filterMap act?, run_of_acts ha, fun m hm v => ?_⟩
  obtain ⟨a, hmem, hact⟩ := List.mem_filterMap.mp hm
  cases a with
  | setOption v' d answer =>
      have hrank := (ht.calls.rank_mem _ (List.mem_filter.mpr ⟨hmem, rfl⟩)).1
      simp [Act.rank] at hrank
  | write | flush => cases hact
  | _ =>
      cases hact
      rfl

theorem Configured.copy (h : w.state.Configured v ds) (u : Nat) (path target : String)
    (chunk : Nat) : (Copy.copy provider u path target chunk w).2.state.Configured v ds := by
  obtain ⟨ms, hms, hnone⟩ := copy_run u path target chunk w
  rw [hms]
  exact h.run_of_none fun m hm => hnone m hm v

/-- Applying directives sets one after the other, and none of them is rejected. -/
theorem applyDirectives_run {x : Volume} (hu : w.state.volume? u = some x) (es : List Directive) :
    ∃ w₁, Session.applyDirectives provider u es w = (.ok (), w₁) ∧
      w₁.state = w.state.run (es.map (.setOption u)) := by
  induction es generalizing w x with
  | nil => exact ⟨w, rfl, rfl⟩
  | cons d rest ih =>
      obtain ⟨w₁, hset, -, hstate⟩ := World.exists_setOption (p := provider) (w := w.debug
        ("setting " ++ d.setting ++ " of translator " ++ d.xlator ++ " to '" ++ d.value ++ "'"))
        (setOption_ok hu d).1
      have hstate : w₁.state = w.state.step (.setOption u d) := hstate
      have hserves : w.state.Serves u x.brick x.name := ⟨x, hu, rfl, rfl⟩
      obtain ⟨y, hy, -⟩ := hserves.step (.setOption u d)
      rw [← hstate] at hy
      obtain ⟨w₂, hrest, hrun⟩ := ih hy
      refine ⟨w₂, ?_, ?_⟩
      · simp only [Session.applyDirectives, hset, hrest]
      · rw [hrun, hstate, List.map_cons, run_cons]

/-- After its directives, a command sets no more of them. -/
theorem configureAndCopy_run {x : Volume} (hu : w.state.volume? u = some x) (c : Command)
    (url : Locator) (debug : Bool) (chunk : Nat) :
    ∃ ms, (Command.configureAndCopy provider (.owned u) c url debug chunk w).2.state =
        w.state.run (c.directives.map (.setOption u) ++ ms) ∧
      ∀ m ∈ ms, ∀ v, m.directive? v = none := by
  obtain ⟨w₁, hset, hrun⟩ := applyDirectives_run hu c.directives
  simp only [Command.configureAndCopy, Session.configurable?, hset]
  cases debug with
  | false =>
      obtain ⟨ms, hms, hnone⟩ := copy_run u url.path c.operand chunk w₁
      simp only [Bool.false_eq_true, if_false]
      exact ⟨ms, by rw [hms, hrun, run_append], hnone⟩
  | true =>
      simp only [if_true, Session.setLogging]
      cases hl : w₁.setLogging provider u Config.debugLog .debug with
      | mk answer w₂ =>
          have hlogged : w₂.state = w₁.state.run [.setLogging u Config.debugLog .debug] :=
            (congrArg (·.2.state) hl).symm
          cases answer with
          | error e =>
              refine ⟨[.setLogging u Config.debugLog .debug], ?_, by simp [Move.directive?]⟩
              rw [run_append, ← hrun]
              exact hlogged
          | ok _ =>
              obtain ⟨ms, hms, hnone⟩ := copy_run u url.path c.operand chunk w₂
              refine ⟨.setLogging u Config.debugLog .debug :: ms, ?_, ?_⟩
              · rw [hms, hlogged, hrun, run_append]
                rfl
              · exact List.forall_mem_cons.mpr ⟨fun _ => rfl, hnone⟩

theorem close_owned_run (w : World State) (u : Nat) :
    ((Session.owned u).close provider w).state = w.state.run [.finish u] := by
  simp only [Session.close]
  split <;> rename_i hf <;> exact (congrArg (·.2.state) hf).symm

variable {url : Locator} {c : Command} {ctx : Context Nat}

/-- A command that makes a session of its own sets its directives on that one and no others. -/
theorem execute_owned_run (hsession : ctx.session = none) (htarget : c.target = .locator url)
    (hu : (w.state.connect url).result = .ok u) :
    ∃ ms, (c.execute provider ctx w).2.state =
        (w.state.connect url).state.run (c.directives.map (.setOption u) ++ ms) ∧
      ∀ m ∈ ms, ∀ v, m.directive? v = none := by
  obtain ⟨w₁, hconnect, -, hstate⟩ := World.exists_connect (p := provider) (w := w.debug
    ("connecting to volume " ++ url.volume ++ " on " ++ url.host ++ ":"
      ++ toString url.port.toNat)) hu
  have hstate : w₁.state = (w.state.connect url).state := hstate
  obtain ⟨x, hx, -⟩ := Configured.of_connect hu
  rw [← hstate] at hx ⊢
  obtain ⟨ms, hms, hnone⟩ :=
    configureAndCopy_run hx c url (c.debug || ctx.debug.getD false) ctx.chunk
  refine ⟨ms ++ [.finish u], ?_, fun m hm => ?_⟩
  · rw [(c.execute_eq provider ctx w).2.2]
    simp only [Command.carryOut, hsession, htarget, Command.copyAlone, Session.connect, hconnect]
    rw [close_owned_run, hms, ← List.append_assoc, run_append _ _ [.finish u]]
  · rcases List.mem_append.mp hm with hm | hm
    · exact hnone m hm
    · rw [List.mem_singleton.mp hm]
      exact fun _ => rfl

/-- The session that a command makes has the options that its directives say. -/
theorem configured_execute_owned (hsession : ctx.session = none) (htarget : c.target = .locator url)
    (hu : (w.state.connect url).result = .ok u) :
    (c.execute provider ctx w).2.state.Configured u c.directives := by
  obtain ⟨ms, hms, hnone⟩ := execute_owned_run hsession htarget hu
  have hown : (c.directives.map (Move.setOption u)).filterMap (·.directive? u) = c.directives := by
    simp [List.filterMap_map, Move.directive?]
  have hset := (Configured.of_connect hu).run (c.directives.map (.setOption u))
  rw [List.nil_append, hown] at hset
  rw [hms, run_append]
  exact hset.run_of_none fun m hm => hnone m hm u

/-- A command leaves the options of every session as they are that was there before. -/
theorem Configured.execute (h : w.state.Configured v ds) (c : Command) (ctx : Context Nat) :
    (c.execute provider ctx w).2.state.Configured v ds := by
  cases hs : ctx.session with
  | none =>
      cases ht : c.target with
      | path path =>
          rw [(execute_of_not_suits (by simp [Command.Suits, hs, ht]) w).2.2]
          exact h
      | locator url =>
          cases hu : (w.state.connect url).result with
          | error x =>
              rw [(c.execute_eq provider ctx w).2.2,
                (Command.carryOut_unconnected (p := provider) hs ht hu).2.2]
              exact h.congr (congrArg State.volumes (connect_state_of_error hu))
          | ok u =>
              obtain ⟨ms, hms, hnone⟩ := execute_owned_run hs ht hu
              have hnew : u ≠ v := by
                have := h.lt
                rcases w.state.connect_eq url with ⟨c, he⟩ | ⟨-, -, ho⟩
                · rw [he] at hu
                  cases hu
                · rw [ho] at hu
                  cases hu
                  omega
              have hothers : ∀ m ∈ .connect url :: (c.directives.map (.setOption u) ++ ms),
                  m.directive? v = none := by
                intro m hm
                rw [List.mem_cons, List.mem_append, List.mem_map] at hm
                rcases hm with rfl | ⟨d, -, rfl⟩ | hm
                · rfl
                · exact if_neg hnew
                · exact hnone m hm v
              rw [hms]
              exact h.run_of_none hothers
  | some u =>
      cases ht : c.target with
      | locator url =>
          rw [(execute_of_not_suits (by simp [Command.Suits, hs, ht]) w).2.2]
          exact h
      | path path =>
          obtain ⟨w₁, hstate, -, -, -, hcopy⟩ := Command.carryOut_supplied provider hs ht w
          rw [(c.execute_eq provider ctx w).2.2, hcopy]
          exact Configured.copy (hstate ▸ h) ..

theorem Configured.perform (h : s.Configured v ds) (d : Deed) :
    (s.perform d).Configured v (ds ++ (d.directive? v).toList) := by
  have hkept : d.directive? v = none → (s.perform d).Configured v ds →
      (s.perform d).Configured v (ds ++ (d.directive? v).toList) := by
    intro hnone hd
    rwa [hnone, Option.toList, List.append_nil]
  cases d with
  | move m => exact h.step m
  | replace f u path =>
      refine hkept rfl ?_
      have hopen : (s.openFile u path).state.Configured v ds :=
        h.congr (s.still_openFile u path).volumes
      simp only [State.perform]
      cases hr : s.openFile u path with
      | mk s' result notes =>
          rw [hr] at hopen
          cases result with
          | ok f' => exact hopen.congr rfl
          | error e => exact hopen
  | copy u path target chunk sink => exact hkept rfl (Configured.copy (w := ⟨s, sink, #[]⟩) h ..)
  | run words connected ctx sink =>
      refine hkept rfl ?_
      simp only [State.perform, Command.run]
      cases Command.parse words connected with
      | error e => exact h
      | ok c => exact Configured.execute (w := ⟨s, sink, #[]⟩) h c ctx

theorem Configured.performed (h : s.Configured v ds) (deeds : List Deed) :
    (s.performed deeds).Configured v (ds ++ deeds.filterMap (·.directive? v)) := by
  induction deeds generalizing s ds with
  | nil => rwa [List.filterMap_nil, List.append_nil]
  | cons d rest ih =>
      have hrest : (s.performed (d :: rest)).Configured v _ := ih (h.perform d)
      rwa [List.append_assoc, ← filterMap_cons_toList] at hrest

theorem Configured.exists_follows (h : s.Configured v ds) :
    ∃ x, s.volume? v = some x ∧ x.Follows ds := by
  obtain ⟨x, hx, hoptions⟩ := h
  exact ⟨x, hx, Volume.follows_of_settled hoptions⟩

/-- From its beginning on, a session has the options that its directives make, whatever else is done
in between. -/
theorem connected_options {url : Locator} (hv : (s.connect url).result = .ok v)
    (deeds : List Deed) :
    let s' := (s.connect url).state.performed deeds
    let ds := deeds.filterMap (·.directive? v)
    ∃ x, s'.volume? v = some x ∧ x.Follows ds ∧
      (∀ d, (s'.setOption v d).result = .ok ()) ∧
      (∀ deed : Deed, deed.directive? v = none →
        ∃ y, (s'.perform deed).volume? v = some y ∧ y.options = x.options) ∧
      (∀ (c : Command) (ctx : Context Nat) sink other u, ctx.session = none →
        c.target = .locator other → (s'.connect other).result = .ok u →
        ∃ y, (c.execute provider ctx { state := s', sink := sink }).2.state.volume? u = some y ∧
          y.Follows c.directives) ∧
      ∀ (y : Volume) es, y.Follows es →
        (x.options.Perm y.options ↔
          ∀ key, Volume.lastValue? ds key = Volume.lastValue? es key) ∧
        ((∀ key, x.option? key = y.option? key) ↔
          ∀ key, Volume.lastValue? ds key = Volume.lastValue? es key) := by
  intro s' ds
  have hconfigured : s'.Configured v ds := by
    simpa only [List.nil_append] using (Configured.of_connect hv).performed deeds
  have ⟨x, hx, hoptions⟩ := hconfigured
  have hfollows := Volume.follows_of_settled hoptions
  refine ⟨x, hx, hfollows, fun d => (setOption_ok hx d).1, fun deed hdeed => ?_,
    fun c ctx sink other u hsession htarget hu => ?_,
    fun y es h => ⟨hfollows.perm_iff h, hfollows.option?_eq_iff h⟩⟩
  · have hdone := hconfigured.perform deed
    rw [hdeed, Option.toList, List.append_nil] at hdone
    obtain ⟨y, hy, hsame⟩ := hdone
    exact ⟨y, hy, hsame.trans hoptions.symm⟩
  · exact (configured_execute_owned (w := { state := s', sink := sink }) hsession htarget
      hu).exists_follows

/-- The first of three directives is overridden by the last, while other sessions are given other
values for the same option. -/
theorem connected_options_overridden :
    let s : State := {
      root := "/r"
      now := { year := 2024, month := 1, day := 1 }
      tree := {
        nodes := [(["v"], .directory), (["v", "f"], .file 0)]
        files := [#[1, 2, 3]] } }
    let url : Locator := ⟨"localhost", "v", "/f", 24007⟩
    let deeds : List Deed := [.move (.setOption 0 ⟨"x", "a", "1"⟩),
      .move (.setOption 0 ⟨"x", "b", "2"⟩), .move (.connect url),
      .move (.setOption 1 ⟨"x", "a", "8"⟩), .copy 0 "/f" "/f" 2 {},
      .run (["gfcat", "-o", "x.a=9", "glfs://localhost/v/f"].map Text.Glyphs.ofString) false {} {},
      .move (.setOption 0 ⟨"x", "a", "3"⟩), .move (.finish 0)]
    (s.connect url).result = .ok 0 ∧
      ∃ x, ((s.connect url).state.performed deeds).volume? 0 = some x ∧
        x.Follows [⟨"x", "a", "1"⟩, ⟨"x", "b", "2"⟩, ⟨"x", "a", "3"⟩] ∧
        x.options = [("x.a", "3"), ("x.b", "2")] := by
  intro s url deeds
  have hv : (s.connect url).result = .ok 0 := by decide +kernel +zetaReduce
  have hoptions : (((s.connect url).state.performed deeds).volume? 0).map Volume.options =
      some [("x.a", "3"), ("x.b", "2")] := by decide +kernel +zetaReduce
  obtain ⟨x, hx, hfollows, -⟩ := connected_options hv deeds
  rw [hx] at hoptions
  exact ⟨hv, x, hx, hfollows, Option.some.inj hoptions⟩

end State

end LockedCat.Export
