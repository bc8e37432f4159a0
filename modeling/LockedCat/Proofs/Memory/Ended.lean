import LockedCat.Proofs.Memory.Accounts
import LockedCat.Proofs.Memory.Moves

/-!
# Volumes that were ended

A volume is not to be used any more once a session with it was ended, and a volume in memory is
there to show where it is. Main statement: from then on every option and every open is refused and
changes nothing, whoever asks and through whatever session, and no copy and no run of the command
succeeds. Only the destination of diagnostics is not guarded: they go to wherever they were asked
for last.
-/

namespace LockedCat

namespace Entry

/-- Where diagnostics were sent to, and which of them. -/
def logging? : Entry → Option (String × Level)
  | call (.setLogging sink level) none => some (sink, level)
  | _ => none

/-- What a volume that was ended may answer. Options and opens are refused, each in its own manner;
diagnostics are sent wherever it is asked for. -/
def FromEnded : Entry → Prop
  | call (.setOption _) failure => failure = some { root := "session already finalized" }
  | call (.openFile _) failure => failure = some (IoError.errno Errno.notConnected).chain
  | call (.setLogging _ _) failure => failure = none
  | _ => True

theorem FromEnded.not_isOpened {e : Entry} (h : e.FromEnded) : e.isOpened = false := by
  unfold isOpened
  split
  · cases h
  · rfl

end Entry

/-! ## Copies that succeed -/

section Opened

variable {V F : Type} {v : V} {path target : String} {chunk n : Nat} {as : List (Act V F)}

/-- Nothing is copied without a file that was opened. -/
theorem CopyTrace.exists_isOpened (h : CopyTrace v path target chunk as (.ok n)) :
    ∃ a ∈ as, a.entry.isOpened := by
  cases h with
  | closed => exact ⟨_, List.mem_cons_self .., rfl⟩

theorem ConfiguredTrace.exists_isOpened {c : Command} {url : Locator} {debug : Bool}
    (h : ConfiguredTrace v c url debug chunk as (.ok n)) : ∃ a ∈ as, a.entry.isOpened := by
  cases h with
  | logged _ _ hc =>
      obtain ⟨a, ha, hopened⟩ := hc.exists_isOpened
      exact ⟨a, List.mem_append_right _ (List.mem_cons_of_mem _ ha), hopened⟩
  | quiet _ _ hc =>
      obtain ⟨a, ha, hopened⟩ := hc.exists_isOpened
      exact ⟨a, List.mem_append_right _ ha, hopened⟩

theorem Command.Trace.exists_isOpened {c : Command} {ctx : Context V}
    (h : c.Trace ctx as (.ok n)) : ∃ a ∈ as, a.entry.isOpened := by
  cases h with
  | within _ _ hc => exact hc.exists_isOpened
  | alone _ _ ha =>
      cases ha with
      | connected hc =>
          obtain ⟨a, ha, hopened⟩ := hc.exists_isOpened
          exact ⟨a, List.mem_cons_of_mem _ (List.mem_append_left _ ha), hopened⟩

end Opened

namespace Memory

/-! ## After the end -/

namespace State

variable {s : State}

theorem setOption_ended (hf : s.isFinished) (d : Directive) :
    s.setOption d = ⟨s, .error { root := "session already finalized" }, []⟩ := if_pos hf

theorem openFile_ended (hf : s.isFinished) (path : String) :
    s.openFile path = ⟨s, .error (.errno Errno.notConnected), []⟩ := if_pos hf

end State

/-- The second state comes about from the first one, which was ended, and these entries of the
journal come with it. -/
structure Outlasts (s : State) (es : List Entry) (s' : State) : Prop where
  answers : ∀ e ∈ es, e.FromEnded
  finished : s'.isFinished
  applied : s'.applied = s.applied
  logging : s'.logging = (es.filterMap Entry.logging?).getLast?.or s.logging

namespace Outlasts

variable {s s₁ s' : State} {e : Entry} {es fs : List Entry}

theorem of_kept (hf : s.isFinished) (h : Kept s s')
    (he : ∀ e ∈ es, e.FromEnded ∧ e.logging? = none) : Outlasts s es s' where
  answers e hm := (he e hm).1
  finished := h.isFinished.trans hf
  applied := h.applied
  logging := by
    rw [List.filterMap_eq_nil_iff.mpr fun e hm => (he e hm).2]
    exact h.logging

theorem single (hf : s.isFinished) (h : Kept s s') (he : e.FromEnded) (hl : e.logging? = none) :
    Outlasts s [e] s' :=
  .of_kept hf h (List.forall_mem_singleton.mpr ⟨he, hl⟩)

theorem none (hf : s.isFinished) (h : Kept s s') : Outlasts s [] s' :=
  .of_kept hf h (List.forall_mem_nil _)

theorem trans (h : Outlasts s es s₁) (h' : Outlasts s₁ fs s') : Outlasts s (es ++ fs) s' where
  answers := List.forall_mem_append.mpr ⟨h.answers, h'.answers⟩
  finished := h'.finished
  applied := h'.applied.trans h.applied
  logging := by
    rw [List.filterMap_append, List.getLast?_append, Option.or_assoc, ← h.logging]
    exact h'.logging

/-- Whatever is done with a volume that was ended, each answer is one of such a volume. -/
theorem act {w w' : World State} {a : Act Unit Nat} (hf : w.state.isFinished)
    (ha : a.Does provider w w') : Outlasts w.state [a.entry] w'.state := by
  cases a with
  | connect url r =>
      cases ha
      exact ⟨List.forall_mem_singleton.mpr trivial, hf, rfl, rfl⟩
  | finish v r =>
      cases ha
      have hended : 0 < w.state.finishCount + 1 := Nat.succ_pos _
      exact ⟨List.forall_mem_singleton.mpr trivial, decide_eq_true hended, rfl, rfl⟩
  | setLogging v sink level r =>
      cases ha
      exact ⟨List.forall_mem_singleton.mpr rfl, hf, rfl, rfl⟩
  -- Only these two look whether the volume was ended.
  | setOption v d r =>
      have hreply : provider.setOption v d w.state = _ := State.setOption_ended hf d
      rw [Act.Does, World.setOption, hreply] at ha
      obtain ⟨rfl, rfl⟩ := Prod.mk.inj ha
      exact .single hf (.refl _) rfl rfl
  | openFile v path r =>
      have hreply : provider.openFile v path w.state = _ := State.openFile_ended hf path
      rw [Act.Does, World.openFile, hreply] at ha
      obtain ⟨rfl, rfl⟩ := Prod.mk.inj ha
      exact .single hf (.refl _) rfl rfl
  | lock f kind r =>
      obtain ⟨-, rfl⟩ := Prod.mk.inj ha
      exact .single hf (State.touches_step (m := .lock f kind) rfl).kept trivial rfl
  | read f size r =>
      obtain ⟨-, rfl⟩ := Prod.mk.inj ha
      exact .single hf (State.touches_step (m := .read f size) rfl).kept trivial rfl
  | close f r =>
      obtain ⟨-, rfl⟩ := Prod.mk.inj ha
      exact .single hf (State.touches_step (m := .close f) rfl).kept trivial rfl
  | write bytes r =>
      obtain ⟨-, -, hstate⟩ := World.write_eq ha
      rw [hstate]
      exact .single hf (.refl _) trivial rfl
  | flush r =>
      obtain ⟨-, -, hstate⟩ := World.flush_eq ha
      rw [hstate]
      exact .single hf (.refl _) trivial rfl

theorem acts {w w' : World State} {as : List (Act Unit Nat)} (hf : w.state.isFinished)
    (ha : Acts provider w as w') : Outlasts w.state (as.map Act.entry) w'.state := by
  induction ha with
  | refl w => exact .none hf (.refl _)
  | report level message _ ih => exact ih hf
  | act ha _ ih =>
      have h := act hf ha
      exact h.trans (ih h.finished)

theorem step {w w' : World State} (hf : w.state.isFinished) (hs : Step w w') :
    ∃ es, w'.recorded = w.recorded ++ es ∧ Outlasts w.state es w'.state := by
  cases hs with
  | act ha _ => exact ⟨_, ha.recorded, act hf ha⟩
  | report level message =>
      exact ⟨[], by rw [World.recorded_report, List.append_nil], .none hf (.refl _)⟩
  | drop f => exact ⟨[], (List.append_nil _).symm, .none hf (.counts ..)⟩
  | turn sink => exact ⟨[], (List.append_nil _).symm, .none hf (.refl _)⟩

theorem reaches {w w' : World State} (hf : w.state.isFinished) (hr : Reaches w w') :
    ∃ es, w'.recorded = w.recorded ++ es ∧ Outlasts w.state es w'.state := by
  induction hr with
  | refl => exact ⟨[], (List.append_nil _).symm, .none hf (.refl _)⟩
  | tail _ hs ih =>
      obtain ⟨es, hrecorded, h⟩ := ih
      obtain ⟨fs, hrecorded', h'⟩ := step h.finished hs
      exact ⟨es ++ fs, by rw [hrecorded', hrecorded, List.append_assoc], h.trans h'⟩

/-- None of the files that are opened after the end is there to be closed. -/
theorem openHandles {w w' : World State} (h : Outlasts w.state es w'.state)
    (hrecorded : w'.recorded = w.recorded ++ es) (ha : Accounted w) (ha' : Accounted w') :
    w'.state.openHandles + es.countP Entry.isClose = w.state.openHandles := by
  have hnone : es.countP Entry.isOpened = 0 := List.countP_eq_zero.mpr fun e hm => by
    rw [(h.answers e hm).not_isOpened]
    nofun
  have hopened : w.state.openHandles + w.state.closeCount = w.recorded.countP Entry.isOpened :=
    congrArg Tally.opened ha.tally
  have hclosed : w.state.closeCount = w.recorded.countP Entry.isClose :=
    congrArg Tally.closed ha.tally
  have hopened' : w'.state.openHandles + w'.state.closeCount =
      w.recorded.countP Entry.isOpened + es.countP Entry.isOpened := by
    rw [← List.countP_append, ← hrecorded]
    exact congrArg Tally.opened ha'.tally
  have hclosed' : w'.state.closeCount =
      w.recorded.countP Entry.isClose + es.countP Entry.isClose := by
    rw [← List.countP_append, ← hrecorded]
    exact congrArg Tally.closed ha'.tally
  omega

end Outlasts

theorem not_isOpened_of_acts {w w' : World State} {as : List (Act Unit Nat)}
    (hf : w.state.isFinished) (ha : Acts provider w as w') : ¬∃ a ∈ as, a.entry.isOpened := by
  rintro ⟨a, hm, hopened⟩
  have h := (Outlasts.acts hf ha).answers a.entry (List.mem_map_of_mem hm)
  rw [h.not_isOpened] at hopened
  cases hopened

theorem copy_ended {w : World State} (hf : w.state.isFinished) (path target : String)
    (chunk : Nat) : ∃ e, (Copy.copy provider () path target chunk w).1 = .error e := by
  obtain ⟨as, ha, ht⟩ := copy_trace provider () path target chunk w
  cases hr : (Copy.copy provider () path target chunk w).1 with
  | error e => exact ⟨e, rfl⟩
  | ok n =>
      rw [hr] at ht
      exact absurd ht.exists_isOpened (not_isOpened_of_acts hf ha)

theorem run_ended {w : World State} (hf : w.state.isFinished) (words : List Text.Glyphs)
    (connected : Bool) (ctx : Context Unit) :
    (Command.run provider words connected ctx w).1 ≠ .success := by
  unfold Command.run
  cases hp : Command.parse words connected with
  | error e => exact Command.ne_success_of_parse hp
  | ok c =>
      show (c.execute provider ctx w).1 ≠ .success
      by_cases hc : c.Suits ctx
      · obtain ⟨as, r, ha, ht, ho⟩ := c.execute_trace provider hc w
        rw [ho]
        cases r with
        | error e => nofun
        | ok n => exact absurd ht.exists_isOpened (not_isOpened_of_acts hf ha)
      · obtain ⟨message, he⟩ := c.execute_of_not_suits provider hc w
        rw [he]
        nofun

/-- Whatever is done to a volume after a session with it was ended, through that session or through
others, options and opens are refused and change nothing, and files are only closed from then on. No
copy and no run of the command succeeds. Diagnostics go wherever they were sent last. -/
theorem ended_refuses (files : List (String × Contents)) (foreignLocks : List String)
    (rejectedKey : Option String) (failReadAfter : Option Nat) (failClose unreachable : Bool) :
    let w₀ : World State := { state := {
      files := files, foreignLocks := foreignLocks, rejectedKey := rejectedKey
      failReadAfter := failReadAfter, failClose := failClose, unreachable := unreachable } }
    ∀ w, Reaches w₀ w → w.state.isFinished →
      (∀ deeds, Reaches w (performed w deeds)) ∧
      ∀ w', Reaches w w' →
        (∃ es, w'.recorded = w.recorded ++ es ∧ (∀ e ∈ es, e.FromEnded) ∧
          w'.state.openHandles + es.countP Entry.isClose = w.state.openHandles ∧
          w'.state.logging = (es.filterMap Entry.logging?).getLast?.or w.state.logging) ∧
        w'.state.applied = w.state.applied ∧ w'.state.isFinished ∧
        (∀ path target chunk, ∃ e, (Copy.copy provider () path target chunk w').1 = .error e) ∧
        ∀ words connected ctx, (Command.run provider words connected ctx w').1 ≠ .success := by
  intro w₀ w hw hf
  have hstart : Accounted w₀ := ⟨rfl, Nat.le_refl _⟩
  have haccounted := hstart.reaches hw
  refine ⟨reaches_performed w, fun w' hr => ?_⟩
  obtain ⟨es, hrecorded, h⟩ := Outlasts.reaches hf hr
  have hopen := h.openHandles hrecorded haccounted (haccounted.reaches hr)
  exact ⟨⟨es, hrecorded, h.answers, hopen, h.logging⟩, h.applied, h.finished,
    copy_ended h.finished, run_ended h.finished⟩

/-- A session that is made after the end of another one is of no use, and the file that was open
before is closed. -/
theorem ended_refuses_reconnected :
    let w₀ : World State := { state := { files := [("/f", #[1])] } }
    let w := performed w₀ [.connect ⟨"h", "v", "/f", 24007⟩, .openFile (.owned ()) "/f",
      .closeSession (.owned ())]
    let w' := performed w [.connect ⟨"h", "v", "/f", 24007⟩, .openFile (.owned ()) "/f", .close 0]
    w.state.isFinished ∧
      (∃ es, w'.recorded = w.recorded ++ es ∧ (∀ e ∈ es, e.FromEnded) ∧
        w'.state.openHandles + es.countP Entry.isClose = 1) ∧
      w'.state.applied = [] ∧ (Command.run provider [] false {} w').1 ≠ .success := by
  intro w₀ w w'
  have hf : w.state.isFinished := rfl
  have hw : Reaches w₀ w := reaches_performed w₀ _
  obtain ⟨hdeeds, hlater⟩ := ended_refuses [("/f", #[1])] [] none none false false w hw hf
  obtain ⟨⟨es, hrecorded, hanswers, hopen, -⟩, happlied, -, -, hrun⟩ := hlater w' (hdeeds _)
  exact ⟨hf, ⟨es, hrecorded, hanswers, hopen⟩, happlied, hrun [] false {}⟩

/-- Of the requests that configure a session, the one for diagnostics is granted after the end. -/
theorem ended_logging_redirected :
    let w := performed { state := {} } [.connect ⟨"h", "v", "/f", 24007⟩, .closeSession (.owned ()),
      .connect ⟨"h", "v", "/f", 24007⟩]
    let w' := perform w (.logging (.owned ()) "/log" .debug)
    Reaches { state := {} } w ∧ w.state.isFinished ∧
      (Session.setLogging provider () "/log" .debug w).1 = .ok () ∧
      w.state.logging = none ∧ w'.state.logging = some ("/log", .debug) ∧
      ¬∀ w w' : World State, Reaches { state := {} } w → w.state.isFinished → Reaches w w' →
        w'.state.logging = w.state.logging := by
  intro w w'
  have hw : Reaches { state := {} } w := reaches_performed _ _
  have hw' : Reaches w w' := reaches_perform w _
  have hf : w.state.isFinished := rfl
  refine ⟨hw, hf, rfl, rfl, rfl, fun h => ?_⟩
  have hkept : w'.state.logging = w.state.logging := h w w' hw hf hw'
  cases hkept

end Memory

end LockedCat
