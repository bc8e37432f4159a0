import LockedCat.Proofs.Pace
import LockedCat.Proofs.Shell
import Mathlib.Logic.Relation

/-!
# Steps on a volume in memory

Whatever is done to a volume in memory, through one session or through many, comes down to single
steps: acts, of which only those are possible that are made with an open file or with none, and
files that are dropped without a close. Main statement: a copy and a run of the command are made of
such steps, and they leave as many files open as there were.
-/

namespace LockedCat

/-- The open file that a copy has got in a phase. -/
def Copy.Phase.file? {F : Type} : Phase F → Option F
  | locking f | moving f _ | flushing f | closing f _ => some f
  | _ => none

variable {σ V F : Type}

theorem connect_acts (p : Provider σ V F) (url : Locator) (w : World σ) :
    ∃ answer, Acts p w [.connect url answer] (Session.connect p url w).2 := by
  unfold Session.connect
  simp only
  cases hc : (w.debug ("connecting to volume " ++ url.volume ++ " on " ++ url.host ++ ":"
      ++ toString url.port.toNat)).connect p url with
  | mk answer w₁ =>
      have h := Acts.report _ _ (.act (a := .connect url answer) hc (.refl w₁))
      cases answer with
      | error c => exact ⟨_, h⟩
      | ok v => exact ⟨_, h⟩

theorem setLogging_acts (p : Provider σ V F) (v : V) (sink : String) (level : Level)
    (w : World σ) :
    ∃ answer,
      Acts p w [.setLogging v sink level answer] (Session.setLogging p v sink level w).2 := by
  unfold Session.setLogging
  cases hl : w.setLogging p v sink level with
  | mk answer w₁ =>
      have h := Acts.act (a := .setLogging v sink level answer) hl (.refl w₁)
      cases answer with
      | error c => exact ⟨_, h⟩
      | ok u => exact ⟨_, h⟩

theorem DirectiveTrace.isOfSession {v : V} {ds : List Directive}
    {as : List (Act V F)} {r : Except Error Unit} (h : DirectiveTrace v ds as r) :
    ∀ a ∈ as, a.isOfSession := by
  induction h with
  | done => exact List.forall_mem_nil _
  | accepted _ ih => exact List.forall_mem_cons.mpr ⟨rfl, ih⟩
  | rejected => exact List.forall_mem_singleton.mpr rfl

namespace Memory

/-! ## Operations -/

namespace State

variable {s : State} {f : Nat} {h : Handle}

/-- Leaves an open file behind without a close. -/
def drop (s : State) (f : Nat) : State := s.setHandle f none

theorem lt_of_handle? (hf : s.handle? f = some h) : f < s.handles.length := by
  rcases Nat.lt_or_ge f s.handles.length with hl | hl
  · exact hl
  · simp [handle?, List.getElem?_eq_none hl] at hf

theorem getElem_of_handle? (hf : s.handle? f = some h) (hl : f < s.handles.length) :
    s.handles[f] = some h := by
  simpa [handle?, hl] using hf

theorem setHandle_handle? (s : State) (f : Nat) : s.setHandle f (s.handle? f) = s := by
  have hset : s.handles.set f (s.handle? f) = s.handles := by
    rcases Nat.lt_or_ge f s.handles.length with hl | hl
    · have hget : s.handle? f = s.handles[f] := by simp [handle?, hl]
      rw [hget, List.set_getElem_self]
    · exact List.set_eq_of_length_le hl
  rw [setHandle, hset]

theorem openHandles_setOption (s : State) (d : Directive) :
    (s.setOption d).state.openHandles = s.openHandles := by
  unfold setOption
  split
  · rfl
  · split <;> rfl

theorem openFile_eq (s : State) (path : String) :
    (∃ e, s.openFile path = ⟨s, .error e, []⟩) ∨
      ∃ contents, s.openFile path = ⟨{ s with
        openHandles := s.openHandles + 1
        handles := s.handles ++ [some { path := path, contents := contents }] },
        .ok s.handles.length, []⟩ := by
  unfold openFile
  split
  · exact .inl ⟨_, rfl⟩
  · split
    · exact .inl ⟨_, rfl⟩
    · exact .inr ⟨_, rfl⟩

/-- An attempt to lock an open file is counted, whether or not it is granted. -/
theorem lock_eq (hf : s.handle? f = some h) (kind : LockKind) :
    ∃ h', (s.lock f kind).state =
      { s with locksTaken := s.locksTaken ++ [kind] }.setHandle f (some h') := by
  have hself : ({ s with locksTaken := s.locksTaken ++ [kind] } : State).handle? f = some h := hf
  simp only [lock, hf]
  split
  · refine ⟨h, ?_⟩
    rw [← hself, setHandle_handle?]
  · exact ⟨_, rfl⟩

theorem read_eq (hf : s.handle? f = some h) (size : Nat) :
    ∃ h', (s.read f size).state = (s.count size).setHandle f (some h') := by
  simp only [read, hf]
  exact ⟨_, rfl⟩

/-- A file is closed, whether or not the close is told to fail. -/
theorem close_eq (hf : s.handle? f = some h) :
    (s.close f).state = { s.setHandle f none with
      openHandles := s.openHandles - 1
      closeCount := s.closeCount + 1 } := by
  simp only [close, hf]

end State

/-! ## Steps -/

/-- Only an open file can be locked, read or closed. -/
def Possible (s : State) : Act Unit Nat → Prop
  | .lock f _ _ | .read f _ _ | .close f _ => ∃ h, s.handle? f = some h
  | _ => True

/-- One step: an act, a report, an open file that is dropped, or another sink for what comes
next. -/
inductive Step : World State → World State → Prop where
  | act {w w' a} : a.Does provider w w' → Possible w.state a → Step w w'
  | report (w level message) : Step w (w.report level message)
  | drop (w f) : Step w { w with state := w.state.drop f }
  | turn (w sink) : Step w { w with sink := sink }

/-- The second world comes about from the first one by steps. -/
abbrev Reaches : World State → World State → Prop := Relation.ReflTransGen Step

/-- The second world comes about by steps, and then as many files are open. -/
structure Leads (w w' : World State) : Prop where
  reaches : Reaches w w'
  openHandles : w'.state.openHandles = w.state.openHandles

namespace Leads

variable {w w₁ w' : World State} {as bs : List (Act Unit Nat)}

theorem refl (w : World State) : Leads w w := ⟨.refl, rfl⟩

theorem trans (h : Leads w w₁) (h' : Leads w₁ w') : Leads w w' :=
  ⟨h.reaches.trans h'.reaches, h'.openHandles.trans h.openHandles⟩

theorem report (w : World State) (level : Level) (message : String) :
    Leads w (w.report level message) := ⟨.single (.report w level message), rfl⟩

theorem turn (w : World State) (sink : Sink) : Leads w { w with sink := sink } :=
  ⟨.single (.turn w sink), rfl⟩

/-- An act about a session opens no file and closes none. -/
theorem of_act {a : Act Unit Nat} (ha : a.Does provider w w') (hs : a.isOfSession) :
    Leads w w' := by
  cases a with
  | connect | setLogging | finish => exact ⟨.single (.act ha trivial), by cases ha; rfl⟩
  | setOption v d r =>
      refine ⟨.single (.act ha trivial), ?_⟩
      cases ha
      exact State.openHandles_setOption w.state d
  | _ => cases hs

theorem of_acts (h : Acts provider w as w') (hs : ∀ a ∈ as, a.isOfSession) : Leads w w' := by
  induction h with
  | refl => exact .refl _
  | report level message _ ih => exact (report _ level message).trans (ih hs)
  | act ha _ ih =>
      rw [List.forall_mem_cons] at hs
      exact (of_act ha hs.1).trans (ih hs.2)

end Leads

/-! ## Copies -/

open Copy (Phase Path)

/-- A copy stands at this phase, and apart from its own file so many are open. -/
structure Holding (n : Nat) (φ : Phase Nat) (s : State) : Prop where
  openHandles : s.openHandles = n + φ.file?.toList.length
  isOpen : ∀ f, φ.file? = some f → ∃ h, s.handle? f = some h

namespace Holding

variable {n : Nat} {φ φ' : Phase Nat} {f size : Nat} {a : Act Unit Nat} {s : State}
  {w w' : World State} {path : String} {as : List (Act Unit Nat)}

/-- The file stays open while it is in use. -/
theorem used (h : Holding n φ s) (hφ : φ.file? = some f) (hφ' : φ'.file? = some f) {s' : State}
    (hn : s'.openHandles = s.openHandles) {x : Handle} (hx : s'.handle? f = some x) :
    Holding n φ' s' where
  openHandles := by rw [hn, h.openHandles, hφ, hφ']
  isOpen g hg := by
    rw [hφ'] at hg
    cases hg
    exact ⟨x, hx⟩

theorem lock (h : Holding n φ s) (hφ : φ.file? = some f) (hφ' : φ'.file? = some f)
    (kind : LockKind) : Holding n φ' (s.lock f kind).state := by
  obtain ⟨x, hx⟩ := h.isOpen f hφ
  obtain ⟨x', hs⟩ := State.lock_eq hx kind
  rw [hs]
  exact h.used hφ hφ' rfl (State.handle?_setHandle_self hx)

theorem read (h : Holding n φ s) (hφ : φ.file? = some f) (hφ' : φ'.file? = some f)
    (size : Nat) : Holding n φ' (s.read f size).state := by
  obtain ⟨x, hx⟩ := h.isOpen f hφ
  obtain ⟨x', hs⟩ := State.read_eq hx size
  rw [hs]
  exact h.used hφ hφ' rfl (State.handle?_setHandle_self hx)

theorem close (h : Holding n φ s) (hφ : φ.file? = some f) (hφ' : φ'.file? = none) :
    Holding n φ' (s.close f).state := by
  obtain ⟨x, hx⟩ := h.isOpen f hφ
  rw [State.close_eq hx]
  refine ⟨?_, fun g hg => by rw [hφ'] at hg; cases hg⟩
  rw [h.openHandles, hφ, hφ']
  rfl

/-- Only the file that is opened now is open beside the others. -/
theorem opened (h : Holding n φ s) (hφ : φ.file? = none) (hφ' : φ'.file? = some f)
    (hf : (s.openFile path).result = .ok f) : Holding n φ' (s.openFile path).state := by
  rcases s.openFile_eq path with ⟨e, he⟩ | ⟨contents, ho⟩
  · rw [he] at hf
    cases hf
  · rw [ho] at hf ⊢
    cases hf
    refine ⟨?_, fun g hg => ?_⟩
    · rw [hφ', h.openHandles, hφ]
      rfl
    · rw [hφ'] at hg
      cases hg
      exact ⟨{ path := path, contents := contents }, by simp [State.handle?]⟩

theorem unopened (h : Holding n φ s) (hφ : φ.file? = none) (hφ' : φ'.file? = none) {e : IoError}
    (hf : (s.openFile path).result = .error e) : Holding n φ' (s.openFile path).state := by
  rcases s.openFile_eq path with ⟨e', he⟩ | ⟨contents, ho⟩
  · rw [he]
    exact ⟨by rw [h.openHandles, hφ, hφ'], fun g hg => by rw [hφ'] at hg; cases hg⟩
  · rw [ho] at hf
    cases hf

/-- One act of a copy is possible where the copy stands, and the copy gets on with it. -/
theorem step (h : Holding n φ w.state) (hs : Copy.Step () path size φ a φ')
    (ha : a.Does provider w w') : Possible w.state a ∧ Holding n φ' w'.state := by
  cases hs with
  | unopened =>
      obtain ⟨hr, rfl⟩ := Prod.mk.inj ha
      exact ⟨trivial, h.unopened rfl rfl hr⟩
  | opened =>
      obtain ⟨hr, rfl⟩ := Prod.mk.inj ha
      exact ⟨trivial, h.opened rfl rfl hr⟩
  | unlocked | locked =>
      obtain ⟨-, rfl⟩ := Prod.mk.inj ha
      exact ⟨h.isOpen _ rfl, h.lock rfl rfl .write⟩
  | ended | read | reread | unread =>
      obtain ⟨-, rfl⟩ := Prod.mk.inj ha
      exact ⟨h.isOpen _ rfl, h.read rfl rfl size⟩
  | written | rewritten | refused | unwritten =>
      obtain ⟨-, -, hstate⟩ := World.write_eq ha
      rw [hstate]
      exact ⟨trivial, h.openHandles, h.isOpen⟩
  | flushed =>
      obtain ⟨-, -, hstate⟩ := World.flush_eq ha
      rw [hstate]
      exact ⟨trivial, h.openHandles, h.isOpen⟩
  | closed =>
      obtain ⟨-, rfl⟩ := Prod.mk.inj ha
      exact ⟨h.isOpen _ rfl, h.close rfl rfl⟩

/-- A stretch of a copy comes down to steps. -/
theorem stretch (h : Holding n φ w.state) (hp : Path () path size φ as φ')
    (ha : Acts provider w as w') : Reaches w w' ∧ Holding n φ' w'.state := by
  induction ha generalizing φ with
  | refl =>
      cases hp
      exact ⟨.refl, h⟩
  | report level message _ ih =>
      obtain ⟨hr, h'⟩ := ih h hp
      exact ⟨.head (.report _ level message) hr, h'⟩
  | act hd _ ih =>
      cases hp with
      | step hs hp =>
          obtain ⟨hpossible, h₁⟩ := h.step hs hd
          obtain ⟨hr, h'⟩ := ih h₁ hp
          exact ⟨.head (.act hd hpossible) hr, h'⟩

end Holding

namespace Leads

variable {w w₁ w' : World State} {as : List (Act Unit Nat)} {path target : String} {chunk : Nat}

/-- The file that a copy opens is closed by it, though the close may be told to fail. -/
theorem of_copy {r : Except Error Nat} (ht : CopyTrace () path target chunk as r)
    (h : Acts provider w as w') : Leads w w' := by
  obtain ⟨left, hp⟩ := ht.path
  have hstart : Holding w.state.openHandles .opening w.state := ⟨rfl, nofun⟩
  obtain ⟨hreaches, hend⟩ := hstart.stretch hp h
  exact ⟨hreaches, hend.openHandles⟩

theorem of_configured {c : Command} {url : Locator} {debug : Bool} {r : Except Error Nat}
    (ht : ConfiguredTrace () c url debug chunk as r) (h : Acts provider w as w') : Leads w w' := by
  cases ht with
  | rejected hd => exact of_acts h hd.isOfSession
  | unlogged hd =>
      obtain ⟨w₁, h₁, h₂⟩ := h.unappend
      exact (of_acts h₁ hd.isOfSession).trans (of_acts h₂ (List.forall_mem_singleton.mpr rfl))
  | logged hd _ hc =>
      rw [List.append_cons] at h
      obtain ⟨w₁, h₁, h₃⟩ := h.unappend
      obtain ⟨w₂, h₁, h₂⟩ := h₁.unappend
      have hclosed := of_acts h₂ (List.forall_mem_singleton.mpr rfl)
      exact ((of_acts h₁ hd.isOfSession).trans hclosed).trans (of_copy hc h₃)
  | quiet hd _ hc =>
      obtain ⟨w₁, h₁, h₂⟩ := h.unappend
      exact (of_acts h₁ hd.isOfSession).trans (of_copy hc h₂)

theorem of_trace {c : Command} {ctx : Context Unit} {r : Except Error Nat}
    (ht : c.Trace ctx as r) (h : Acts provider w as w') : Leads w w' := by
  cases ht with
  | within _ _ hc => exact of_copy hc h
  | alone _ _ ha =>
      cases ha with
      | unconnected => exact of_acts h (List.forall_mem_singleton.mpr rfl)
      | connected hc =>
          rw [← List.singleton_append] at h
          obtain ⟨w₁, h₁, h⟩ := h.unappend
          obtain ⟨w₂, h₂, h₃⟩ := h.unappend
          exact ((of_acts h₁ (List.forall_mem_singleton.mpr rfl)).trans (of_configured hc h₂)).trans
            (of_acts h₃ (List.forall_mem_singleton.mpr rfl))

theorem copy (w : World State) (path target : String) (chunk : Nat) :
    Leads w (Copy.copy provider () path target chunk w).2 := by
  obtain ⟨as, h, ht⟩ := copy_trace provider () path target chunk w
  exact of_copy ht h

theorem execute (w : World State) (c : Command) (ctx : Context Unit) :
    Leads w (c.execute provider ctx w).2 := by
  by_cases hc : c.Suits ctx
  · obtain ⟨as, r, h, ht, -⟩ := c.execute_trace provider hc w
    exact of_trace ht h
  · obtain ⟨message, he⟩ := c.execute_of_not_suits provider hc w
    rw [he]
    exact report w .error message

theorem run (w : World State) (words : List Text.Glyphs) (connected : Bool) (ctx : Context Unit) :
    Leads w (Command.run provider words connected ctx w).2.2 := by
  unfold Command.run
  cases Command.parse words connected with
  | error e => exact .refl w
  | ok c => exact execute w c ctx

theorem connect (w : World State) (url : Locator) :
    Leads w (Session.connect provider url w).2 := by
  obtain ⟨answer, h⟩ := connect_acts provider url w
  exact of_acts h (List.forall_mem_singleton.mpr rfl)

theorem setLogging (w : World State) (sink : String) (level : Level) :
    Leads w (Session.setLogging provider () sink level w).2 := by
  obtain ⟨answer, h⟩ := setLogging_acts provider () sink level w
  exact of_acts h (List.forall_mem_singleton.mpr rfl)

theorem applyDirectives (w : World State) (ds : List Directive) :
    Leads w (Session.applyDirectives provider () ds w).2 := by
  obtain ⟨as, h, ht⟩ := applyDirectives_trace provider () ds w
  exact of_acts h.acts ht.isOfSession

theorem close (w : World State) (s : Session Unit) : Leads w (s.close provider w) := by
  cases s with
  | borrowed v => exact report w .debug _
  | owned v =>
      obtain ⟨x, h⟩ := close_owned_calm provider v w
      exact of_acts h.acts (List.forall_mem_singleton.mpr rfl)

end Leads

/-! ## Deeds -/

/-- What clients do to a volume: to a session of theirs, which is owned or borrowed, to a file that
they have opened, or with a copy or a run of the command, each to a sink of its own. -/
inductive Deed where
  | connect (url : Locator)
  | options (session : Session Unit) (directives : List Directive)
  | logging (session : Session Unit) (sink : String) (level : Level)
  | openFile (session : Session Unit) (path : String)
  | lock (file : Nat) (kind : LockKind)
  | read (file size : Nat)
  | close (file : Nat)
  | drop (file : Nat)
  | copy (session : Session Unit) (path target : String) (chunk : Nat) (sink : Sink)
  | closeSession (session : Session Unit)
  | run (words : List Text.Glyphs) (connected : Bool) (ctx : Context Unit) (sink : Sink)

/-- What is done with a file is done only while it is open, and only a session that is owned is
configured. -/
def perform (w : World State) : Deed → World State
  | .connect url => (Session.connect provider url w).2
  | .options s ds =>
      match s.configurable? with
      | none => w
      | some v => (Session.applyDirectives provider v ds w).2
  | .logging s sink level =>
      match s.configurable? with
      | none => w
      | some v => (Session.setLogging provider v sink level w).2
  | .openFile s path => (w.openFile provider s.volume path).2
  | .lock f kind => if (w.state.handle? f).isSome then (w.lock provider f kind).2 else w
  | .read f size => if (w.state.handle? f).isSome then (w.read provider f size).2 else w
  | .close f => if (w.state.handle? f).isSome then (w.close provider f).2 else w
  | .drop f => { w with state := w.state.drop f }
  | .copy s path target chunk sink =>
      (Copy.copy provider s.volume path target chunk { w with sink := sink }).2
  | .closeSession s => s.close provider w
  | .run words connected ctx sink =>
      (Command.run provider words connected ctx { w with sink := sink }).2.2

def performed (w : World State) (deeds : List Deed) : World State := deeds.foldl perform w

theorem reaches_of_open {w w' : World State} {f : Nat}
    (h : (∃ x, w.state.handle? f = some x) → Step w w') :
    Reaches w (if (w.state.handle? f).isSome then w' else w) := by
  split
  · rename_i hf
    exact .single (h (Option.isSome_iff_exists.mp hf))
  · exact .refl

/-- What clients do comes down to single steps. -/
theorem reaches_perform (w : World State) (d : Deed) : Reaches w (perform w d) := by
  cases d with
  | connect url => exact (Leads.connect w url).reaches
  | options s ds =>
      cases s with
      | borrowed => exact .refl
      | owned => exact (Leads.applyDirectives w ds).reaches
  | logging s sink level =>
      cases s with
      | borrowed => exact .refl
      | owned => exact (Leads.setLogging w sink level).reaches
  | openFile s path => exact .single (.act (a := .openFile () path _) rfl trivial)
  | lock f kind => exact reaches_of_open fun hf => .act (a := .lock f kind _) rfl hf
  | read f size => exact reaches_of_open fun hf => .act (a := .read f size _) rfl hf
  | close f => exact reaches_of_open fun hf => .act (a := .close f _) rfl hf
  | drop f => exact .single (.drop w f)
  | copy s path target chunk sink =>
      exact ((Leads.turn w sink).trans (.copy _ path target chunk)).reaches
  | closeSession s => exact (Leads.close w s).reaches
  | run words connected ctx sink =>
      exact ((Leads.turn w sink).trans (.run _ words connected ctx)).reaches

theorem reaches_performed (w : World State) (deeds : List Deed) :
    Reaches w (performed w deeds) := by
  induction deeds generalizing w with
  | nil => exact .refl
  | cons d rest ih => exact (reaches_perform w d).trans (ih (perform w d))

end Memory

end LockedCat
