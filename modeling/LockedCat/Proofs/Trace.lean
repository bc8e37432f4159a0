import LockedCat.Run

/-!
# Traces

What a command does to the world, act by act, each with the answer it got. The journal keeps the
acts of a run in order, between what was reported.

The trace relations below say all that each part of a command can do and how that part ends. Every
function of a run has one lemma here, which puts its acts and its result into its relation; what
holds of all runs is then an induction over the relations and never opens a function.
-/

namespace LockedCat

/-- One use that a command makes of a provider or of the sink, and the answer. -/
inductive Act (V F : Type) where
  | connect (url : Locator) (answer : Except Chain V)
  | setOption (volume : V) (directive : Directive) (answer : Except Chain Unit)
  | setLogging (volume : V) (sink : String) (level : Level) (answer : Except Chain Unit)
  | openFile (volume : V) (path : String) (answer : Except IoError F)
  | lock (file : F) (kind : LockKind) (answer : Except IoError Unit)
  | read (file : F) (size : Nat) (answer : Except IoError (List UInt8))
  | close (file : F) (answer : Except IoError Unit)
  | finish (volume : V) (answer : Except Chain Unit)
  | write (bytes : List UInt8) (answer : Except IoError Nat)
  | flush (failure : Option IoError)

variable {σ V F ε α : Type}

namespace Act

/-- The act, with the answer it got, takes the first world to the second. -/
def Does (p : Provider σ V F) (w : World σ) : Act V F → World σ → Prop
  | connect url r, w' => w.connect p url = (r, w')
  | setOption v d r, w' => w.setOption p v d = (r, w')
  | setLogging v sink level r, w' => w.setLogging p v sink level = (r, w')
  | openFile v path r, w' => w.openFile p v path = (r, w')
  | lock f kind r, w' => w.lock p f kind = (r, w')
  | read f size r, w' => w.read p f size = (r, w')
  | close f r, w' => w.close p f = (r, w')
  | finish v r, w' => w.finish p v = (r, w')
  | write bytes r, w' => w.write bytes = (r, w')
  | flush r, w' => w.flush = (r, w')

/-- What the journal keeps of an act. -/
def entry : Act V F → Entry
  | connect url r => .call (.connect url) (World.failure id r)
  | setOption _ d r => .call (.setOption d) (World.failure id r)
  | setLogging _ sink level r => .call (.setLogging sink level) (World.failure id r)
  | openFile _ path r => .call (.openFile path) (World.failure IoError.chain r)
  | lock _ kind r => .call (.lock kind) (World.failure IoError.chain r)
  | read _ size r => .read size r
  | close _ r => .call .close (World.failure IoError.chain r)
  | finish _ r => .call .finish (World.failure id r)
  | write bytes r => .write bytes r
  | flush r => .flush r

def isCall : Act V F → Bool
  | write .. | flush _ => false
  | _ => true

/-- What the command warns of after an act. -/
def warning? : Act V F → Option Event
  | finish _ (.error c) => some ⟨.warn, "failed to finalize session: " ++ c.message⟩
  | _ => none

end Act

/-! ## Runs -/

/-- These acts, in this order and with nothing but reports between them, take the first world to
the second. -/
inductive Acts (p : Provider σ V F) : World σ → List (Act V F) → World σ → Prop where
  | refl (w) : Acts p w [] w
  | report {w w' as} (level message) : Acts p (w.report level message) as w' → Acts p w as w'
  | act {w w₁ w' a as} : a.Does p w w₁ → Acts p w₁ as w' → Acts p w (a :: as) w'

namespace Acts

variable {p : Provider σ V F} {w w₁ w' : World σ} {a : Act V F} {as bs : List (Act V F)}

theorem trans (h : Acts p w as w₁) (h' : Acts p w₁ bs w') : Acts p w (as ++ bs) w' := by
  induction h with
  | refl => exact h'
  | report level message _ ih => exact .report level message (ih h')
  | act ha _ ih => exact .act ha (ih h')

/-- Nothing but reports comes before the first act. -/
theorem uncons (h : Acts p w (a :: as) w') :
    ∃ w₁ w₂, Acts p w [] w₁ ∧ a.Does p w₁ w₂ ∧ Acts p w₂ as w' := by
  generalize hx : a :: as = xs at h
  induction h with
  | refl => cases hx
  | report level message _ ih =>
      obtain ⟨w₁, w₂, hr, ha, h⟩ := ih hx
      exact ⟨w₁, w₂, .report level message hr, ha, h⟩
  | act ha h _ =>
      cases hx
      exact ⟨_, _, .refl _, ha, h⟩

/-- Reports change nothing for the provider or the sink. -/
theorem of_nil (h : Acts p w [] w') : w'.state = w.state ∧ w'.sink = w.sink := by
  generalize hn : ([] : List (Act V F)) = as at h
  induction h with
  | refl => exact ⟨rfl, rfl⟩
  | report level message _ ih => exact ih hn
  | act => cases hn

/-- The first act meets the state and the sink that there were before the reports. -/
theorem head (h : Acts p w (a :: as) w') :
    ∃ w₀ w₁, w₀.state = w.state ∧ w₀.sink = w.sink ∧ a.Does p w₀ w₁ ∧ Acts p w₁ as w' := by
  obtain ⟨w₀, w₁, hr, ha, h⟩ := h.uncons
  exact ⟨w₀, w₁, hr.of_nil.1, hr.of_nil.2, ha, h⟩

theorem unappend (h : Acts p w (as ++ bs) w') : ∃ w₁, Acts p w as w₁ ∧ Acts p w₁ bs w' := by
  induction as generalizing w with
  | nil => exact ⟨w, .refl w, h⟩
  | cons a as ih =>
      obtain ⟨w₁, w₂, hr, ha, h⟩ := uncons h
      obtain ⟨w₃, h₁, h₂⟩ := ih h
      exact ⟨w₃, hr.trans (.act ha h₁), h₂⟩

end Acts

/-! ## Reports -/

/-- These acts take the first world to the second, and these events are what the command reports on
the way. What a provider says of itself is not among them. -/
inductive Course (p : Provider σ V F) :
    World σ → List (Act V F) → List Event → World σ → Prop where
  | refl (w) : Course p w [] [] w
  | report {w w' as es} (e : Event) : Course p (w.report e.level e.message) as es w' →
      Course p w as (e :: es) w'
  | act {w w₁ w' a as es} : a.Does p w w₁ → Course p w₁ as es w' → Course p w (a :: as) es w'

namespace Course

variable {p : Provider σ V F} {w w₁ w' : World σ} {as bs : List (Act V F)} {es fs : List Event}

theorem trans (h : Course p w as es w₁) (h' : Course p w₁ bs fs w') :
    Course p w (as ++ bs) (es ++ fs) w' := by
  induction h with
  | refl => exact h'
  | report e _ ih => exact .report e (ih h')
  | act ha _ ih => exact .act ha (ih h')

theorem acts (h : Course p w as es w') : Acts p w as w' := by
  induction h with
  | refl w => exact .refl w
  | report e _ ih => exact .report e.level e.message ih
  | act ha _ ih => exact .act ha ih

end Course

/-- What is of more than passing interest, in the order in which it was reported. -/
def notable (es : List Event) : List Event := es.filter (·.level ≠ .debug)

theorem notable_append (es fs : List Event) : notable (es ++ fs) = notable es ++ notable fs :=
  List.filter_append ..

/-- These acts take the first world to the second, and nothing notable is reported on the way but
what the acts are a warning of. -/
def Calm (p : Provider σ V F) (w : World σ) (as : List (Act V F)) (w' : World σ) : Prop :=
  ∃ es, Course p w as es w' ∧ notable es = as.filterMap Act.warning?

namespace Calm

variable {p : Provider σ V F} {w w₁ w' : World σ} {a : Act V F} {as bs : List (Act V F)}

theorem refl (w : World σ) : Calm p w ([] : List (Act V F)) w := ⟨[], .refl w, rfl⟩

theorem trans (h : Calm p w as w₁) (h' : Calm p w₁ bs w') : Calm p w (as ++ bs) w' := by
  obtain ⟨es, hc, he⟩ := h
  obtain ⟨fs, hc', he'⟩ := h'
  exact ⟨es ++ fs, hc.trans hc', by rw [notable_append, he, he', List.filterMap_append]⟩

theorem debug (message : String) (h : Calm p (w.debug message) as w') : Calm p w as w' := by
  obtain ⟨es, hc, he⟩ := h
  exact ⟨⟨.debug, message⟩ :: es, .report ⟨.debug, message⟩ hc, he⟩

theorem debugged (message : String) (h : Calm p w as w') : Calm p w as (w'.debug message) := by
  have hd : Calm p w' ([] : List (Act V F)) (w'.debug message) := .debug message (.refl _)
  simpa using h.trans hd

theorem act (ha : a.Does p w w₁) (hw : a.warning? = none) (h : Calm p w₁ as w') :
    Calm p w (a :: as) w' := by
  obtain ⟨es, hc, he⟩ := h
  exact ⟨es, .act ha hc, by rw [he, List.filterMap_cons_none hw]⟩

theorem single (ha : a.Does p w w') (hw : a.warning? = none) : Calm p w [a] w' :=
  .act ha hw (.refl w')

theorem warned {v : V} {c : Chain} (h : w.finish p v = (.error c, w₁)) :
    Calm p w [.finish v (.error c)]
      (w₁.report .warn ("failed to finalize session: " ++ c.message)) :=
  ⟨[⟨.warn, "failed to finalize session: " ++ c.message⟩],
    .act h (.report ⟨.warn, _⟩ (.refl _)), rfl⟩

theorem acts (h : Calm p w as w') : Acts p w as w' :=
  let ⟨_, hc, _⟩ := h
  hc.acts

end Calm

/-! ## The journal -/

/-- A line of the journal that is none of the things that a provider says of itself. -/
def Entry.isAct : Entry → Bool
  | event _ | line _ | record .. => false
  | _ => true

namespace World

/-- The acts that the journal holds, in order. -/
def recorded (w : World σ) : List Entry := w.journal.toList.filter Entry.isAct

@[simp] theorem recorded_report (w : World σ) (level : Level) (message : String) :
    (w.report level message).recorded = w.recorded := by
  simp [recorded, report, Entry.isAct]

/-- What a provider says of itself is no act of the command. -/
theorem filter_isAct_notes (notes : List Note) :
    (notes.map Note.entry).filter Entry.isAct = [] := by
  rw [List.filter_eq_nil_iff]
  intro e he
  obtain ⟨n, -, rfl⟩ := List.mem_map.mp he
  cases n <;> simp [Note.entry, Entry.isAct]

end World

theorem Act.Does.recorded {p : Provider σ V F} {w w' : World σ} {a : Act V F}
    (h : a.Does p w w') : w'.recorded = w.recorded ++ [a.entry] := by
  cases a <;> cases h <;>
    simp [World.recorded, Act.entry, Entry.isAct, World.filter_isAct_notes, List.filter_cons]

/-- The journal keeps exactly the acts of a run. -/
theorem Acts.recorded {p : Provider σ V F} {w w' : World σ} {as : List (Act V F)}
    (h : Acts p w as w') : w'.recorded = w.recorded ++ as.map Act.entry := by
  induction h with
  | refl => simp
  | report level message _ ih => simpa using ih
  | act ha _ ih => rw [ih, ha.recorded]; simp

/-! ## Writing -/

/-- What writing all of some bytes does. -/
inductive WriteTrace : List UInt8 → List (Act V F) → Except IoError Unit → Prop where
  | done : WriteTrace [] [] (.ok ())
  | refused {bytes} : bytes ≠ [] →
      WriteTrace bytes [.write bytes (.ok 0)] (.error (.simple .writeZero))
  | part {bytes n as r} : bytes ≠ [] → WriteTrace (bytes.drop (n + 1)) as r →
      WriteTrace bytes (.write bytes (.ok (n + 1)) :: as) r
  | again {bytes e as r} : bytes ≠ [] → e.isInterrupted → WriteTrace bytes as r →
      WriteTrace bytes (.write bytes (.error e) :: as) r
  | failed {bytes e} : bytes ≠ [] → ¬ e.isInterrupted →
      WriteTrace bytes [.write bytes (.error e)] (.error e)

theorem writeAll_trace (p : Provider σ V F) (w : World σ) (bytes : List UInt8) :
    ∃ as, Calm p w as (w.writeAll bytes).2 ∧ WriteTrace bytes as (w.writeAll bytes).1 := by
  fun_induction World.writeAll w bytes with
  | case1 w bytes hb =>
      rw [List.isEmpty_iff] at hb
      subst hb
      exact ⟨[], .refl w, .done⟩
  | case2 w bytes hb w' h =>
      rw [List.isEmpty_iff] at hb
      exact ⟨[.write bytes (.ok 0)], .single h rfl, .refused hb⟩
  | case3 w bytes hb n w' h ih =>
      rw [List.isEmpty_iff] at hb
      obtain ⟨as, ha, ht⟩ := ih
      exact ⟨.write bytes (.ok (n + 1)) :: as, .act h rfl ha, .part hb ht⟩
  | case4 w bytes hb e w' h he ih =>
      rw [List.isEmpty_iff] at hb
      obtain ⟨as, ha, ht⟩ := ih
      exact ⟨.write bytes (.error e) :: as, .act h rfl ha, .again hb he ht⟩
  | case5 w bytes hb e w' h he =>
      rw [List.isEmpty_iff] at hb
      exact ⟨[.write bytes (.error e)], .single h rfl, .failed hb he⟩

/-! ## Copies -/

/-- What copying the rest of a file does after `copied` bytes of it. -/
inductive TransferTrace (f : F) (size : Nat) :
    Nat → List (Act V F) → Except Chain Nat → Prop where
  | finished {copied} :
      TransferTrace f size copied [.read f size (.ok []), .flush none] (.ok copied)
  | unflushed {copied e} :
      TransferTrace f size copied [.read f size (.ok []), .flush (some e)]
        (.error (e.chain.within "write error"))
  | chunk {copied bytes ws as r} : bytes ≠ [] → WriteTrace bytes ws (.ok ()) →
      TransferTrace f size (copied + bytes.length) as r →
      TransferTrace f size copied (.read f size (.ok bytes) :: (ws ++ as)) r
  | unwritten {copied bytes ws e} : bytes ≠ [] → WriteTrace bytes ws (.error e) →
      TransferTrace f size copied (.read f size (.ok bytes) :: ws)
        (.error (e.chain.within "write error"))
  | again {copied e as r} : e.isInterrupted → TransferTrace f size copied as r →
      TransferTrace f size copied (.read f size (.error e) :: as) r
  | failed {copied e} : ¬ e.isInterrupted →
      TransferTrace f size copied [.read f size (.error e)]
        (.error (e.chain.within ("read error after " ++ toString copied ++ " bytes")))

theorem transfer_trace (p : Provider σ V F) (f : F) (chunk : { n : Nat // 0 < n }) (copied : Nat)
    (w : World σ) :
    ∃ as, Calm p w as (Copy.transfer p f chunk copied w).2 ∧
      TransferTrace f chunk copied as (Copy.transfer p f chunk copied w).1 := by
  fun_induction Copy.transfer p f chunk copied w with
  | case1 copied w w₁ h e w₂ h₂ =>
      exact ⟨[.read f chunk (.ok []), .flush (some e)], .act h rfl (.single h₂ rfl), .unflushed⟩
  | case2 copied w w₁ h w₂ h₂ =>
      exact ⟨[.read f chunk (.ok []), .flush none], .debugged _ (.act h rfl (.single h₂ rfl)),
        .finished⟩
  | case3 copied w b bytes w₁ h e w₂ h₂ =>
      obtain ⟨ws, ha, ht⟩ := writeAll_trace p w₁ (b :: bytes)
      rw [h₂] at ha ht
      exact ⟨.read f chunk (.ok (b :: bytes)) :: ws, .act h rfl ha,
        .unwritten (List.cons_ne_nil _ _) ht⟩
  | case4 copied w b bytes w₁ h w₂ h₂ ih =>
      obtain ⟨ws, ha, ht⟩ := writeAll_trace p w₁ (b :: bytes)
      rw [h₂] at ha ht
      obtain ⟨as, hr, hrt⟩ := ih
      exact ⟨.read f chunk (.ok (b :: bytes)) :: (ws ++ as), .act h rfl (ha.trans hr),
        .chunk (List.cons_ne_nil _ _) ht hrt⟩
  | case5 copied w e w₁ h he ih =>
      obtain ⟨as, ha, ht⟩ := ih
      exact ⟨.read f chunk (.error e) :: as, .act h rfl ha, .again he ht⟩
  | case6 copied w e w₁ h he => exact ⟨[.read f chunk (.error e)], .single h rfl, .failed he⟩

/-- What locking an open file and copying it does. -/
inductive LockTrace (f : F) (path target : String) (chunk : Nat) :
    List (Act V F) → Except Error Nat → Prop where
  | unlocked {e} :
      LockTrace f path target chunk [.lock f .write (.error e)]
        (.error ⟨.copy .locking, target, e.chain.within ("cannot lock " ++ path)⟩)
  | broken {as c} : TransferTrace f (Copy.readSize chunk) 0 as (.error c) →
      LockTrace f path target chunk (.lock f .write (.ok ()) :: as)
        (.error ⟨.copy .transfer, target, c⟩)
  | copied {as n} : TransferTrace f (Copy.readSize chunk) 0 as (.ok n) →
      LockTrace f path target chunk (.lock f .write (.ok ()) :: as) (.ok n)

theorem lockAndTransfer_trace (p : Provider σ V F) (f : F) (path target : String) (chunk : Nat)
    (w : World σ) :
    ∃ as, Calm p w as (Copy.lockAndTransfer p f path target chunk w).2 ∧
      LockTrace f path target chunk as (Copy.lockAndTransfer p f path target chunk w).1 := by
  unfold Copy.lockAndTransfer
  cases hl : w.lock p f .write with
  | mk answer w₁ =>
      cases answer with
      | error e => exact ⟨[.lock f .write (.error e)], .single hl rfl, .unlocked⟩
      | ok u =>
          obtain ⟨as, ha, ht⟩ := transfer_trace p f (Copy.readSize chunk) 0
            (w₁.debug "lock acquired, copying data")
          have hrun := Calm.act (a := .lock f .write (.ok ())) hl rfl (.debug _ ha)
          simp only
          cases hc : Copy.transfer p f (Copy.readSize chunk) 0
              (w₁.debug "lock acquired, copying data") with
          | mk result w₂ =>
              rw [hc] at hrun ht
              cases result with
              | error c => exact ⟨_, hrun, .broken ht⟩
              | ok n => exact ⟨_, hrun, .copied ht⟩

/-- What copying a file of a volume does. -/
inductive CopyTrace (v : V) (path target : String) (chunk : Nat) :
    List (Act V F) → Except Error Nat → Prop where
  | unopened {e} :
      CopyTrace v path target chunk [.openFile v path (.error e)]
        (.error ⟨.copy .opening, target, e.chain.within ("cannot open " ++ path ++ " for reading")⟩)
  | closed {f as r} : LockTrace f path target chunk as r →
      CopyTrace v path target chunk
        (.openFile v path (.ok f) :: (as ++ [.close f (.ok ())])) r
  | unclosed {f as r e} : LockTrace f path target chunk as r →
      CopyTrace v path target chunk
        (.openFile v path (.ok f) :: (as ++ [.close f (.error e)]))
        (.error ⟨.copy .closing, target, e.chain.within (Copy.closeContext path r)⟩)

theorem copy_calm (p : Provider σ V F) (v : V) (path target : String) (chunk : Nat)
    (w : World σ) :
    ∃ as, Calm p w as (Copy.copy p v path target chunk w).2 ∧
      CopyTrace v path target chunk as (Copy.copy p v path target chunk w).1 := by
  unfold Copy.copy
  simp only
  cases ho : (w.debug ("opening " ++ Text.quoted path ++ " for reading")).openFile p v path with
  | mk answer w₁ =>
      cases answer with
      | error e =>
          exact ⟨[.openFile v path (.error e)], .debug _ (.single ho rfl), .unopened⟩
      | ok f =>
          obtain ⟨as, ha, ht⟩ := lockAndTransfer_trace p f path target chunk w₁
          simp only
          cases hc : (Copy.lockAndTransfer p f path target chunk w₁).2.debug
              ("closing " ++ Text.quoted path) |>.close p f with
          | mk answer w₂ =>
              have hrun := Calm.debug _ <| Calm.act (a := .openFile v path (.ok f)) ho rfl <|
                (ha.debugged _).trans (.single (a := .close f answer) hc rfl)
              cases answer with
              | error e => exact ⟨_, hrun, .unclosed ht⟩
              | ok u => exact ⟨_, hrun, .closed ht⟩

theorem copy_trace (p : Provider σ V F) (v : V) (path target : String) (chunk : Nat)
    (w : World σ) :
    ∃ as, Acts p w as (Copy.copy p v path target chunk w).2 ∧
      CopyTrace v path target chunk as (Copy.copy p v path target chunk w).1 := by
  obtain ⟨as, ha, ht⟩ := copy_calm p v path target chunk w
  exact ⟨as, ha.acts, ht⟩

/-! ## Sessions -/

/-- What applying directives in order does. -/
inductive DirectiveTrace (v : V) : List Directive → List (Act V F) → Except Error Unit → Prop where
  | done : DirectiveTrace v [] [] (.ok ())
  | accepted {d rest as r} : DirectiveTrace v rest as r →
      DirectiveTrace v (d :: rest) (.setOption v d (.ok ()) :: as) r
  | rejected {d rest c} :
      DirectiveTrace v (d :: rest) [.setOption v d (.error c)]
        (.error ⟨.config, d.key,
          c.within ("failed to apply translator option with value '" ++ d.value ++ "'")⟩)

theorem applyDirectives_trace (p : Provider σ V F) (v : V) (ds : List Directive) (w : World σ) :
    ∃ as, Calm p w as (Session.applyDirectives p v ds w).2 ∧
      DirectiveTrace v ds as (Session.applyDirectives p v ds w).1 := by
  induction ds generalizing w with
  | nil => exact ⟨[], .refl w, .done⟩
  | cons d rest ih =>
      simp only [Session.applyDirectives]
      cases hs : (w.debug ("setting " ++ d.setting ++ " of translator " ++ d.xlator ++ " to '"
          ++ d.value ++ "'")).setOption p v d with
      | mk answer w₁ =>
          cases answer with
          | error c =>
              exact ⟨[.setOption v d (.error c)], .debug _ (.single hs rfl), .rejected⟩
          | ok u =>
              obtain ⟨as, ha, ht⟩ := ih w₁
              exact ⟨.setOption v d (.ok ()) :: as, .debug _ (.act hs rfl ha), .accepted ht⟩

/-- What configuring a session that is owned and copying a file through it does. -/
inductive ConfiguredTrace (v : V) (c : Command) (url : Locator) (debug : Bool) (chunk : Nat) :
    List (Act V F) → Except Error Nat → Prop where
  | rejected {as e} : DirectiveTrace v c.directives as (.error e) →
      ConfiguredTrace v c url debug chunk as (.error e)
  | unlogged {as x} : DirectiveTrace v c.directives as (.ok ()) → debug →
      ConfiguredTrace v c url debug chunk
        (as ++ [.setLogging v Config.debugLog .debug (.error x)])
        (.error ⟨.config, Config.debugLog, x.within "failed to set logging level"⟩)
  | logged {as bs r} : DirectiveTrace v c.directives as (.ok ()) → debug →
      CopyTrace v url.path c.operand chunk bs r →
      ConfiguredTrace v c url debug chunk
        (as ++ .setLogging v Config.debugLog .debug (.ok ()) :: bs) r
  | quiet {as bs r} : DirectiveTrace v c.directives as (.ok ()) → debug = false →
      CopyTrace v url.path c.operand chunk bs r →
      ConfiguredTrace v c url debug chunk (as ++ bs) r

theorem configureAndCopy_trace (p : Provider σ V F) (v : V) (c : Command) (url : Locator)
    (debug : Bool) (chunk : Nat) (w : World σ) :
    ∃ as, Calm p w as (Command.configureAndCopy p (.owned v) c url debug chunk w).2 ∧
      ConfiguredTrace v c url debug chunk as
        (Command.configureAndCopy p (.owned v) c url debug chunk w).1 := by
  obtain ⟨as, ha, ht⟩ := applyDirectives_trace p v c.directives w
  simp only [Command.configureAndCopy, Session.configurable?]
  cases hd : Session.applyDirectives p v c.directives w with
  | mk result w₁ =>
      rw [hd] at ha ht
      cases result with
      | error e => exact ⟨as, ha, .rejected ht⟩
      | ok u =>
          cases debug with
          | false =>
              obtain ⟨bs, hb, hbt⟩ := copy_calm p v url.path c.operand chunk w₁
              exact ⟨as ++ bs, ha.trans hb, .quiet ht rfl hbt⟩
          | true =>
              simp only [Session.setLogging, if_true]
              cases hl : w₁.setLogging p v Config.debugLog .debug with
              | mk answer w₂ =>
                  cases answer with
                  | error x =>
                      have hrun := Calm.single (a := .setLogging v Config.debugLog .debug _) hl rfl
                      exact ⟨_, ha.trans hrun, .unlogged ht rfl⟩
                  | ok u =>
                      obtain ⟨bs, hb, hbt⟩ := copy_calm p v url.path c.operand chunk w₂
                      exact ⟨as ++ .setLogging v Config.debugLog .debug (.ok ()) :: bs,
                        ha.trans (.act hl rfl hb), .logged ht rfl hbt⟩

/-- What copying a file through a session made for it does. -/
inductive AloneTrace (c : Command) (url : Locator) (debug : Bool) (chunk : Nat) :
    List (Act V F) → Except Error Nat → Prop where
  | unconnected {x} :
      AloneTrace c url debug chunk [.connect url (.error x)] (.error ⟨.connect, url.display, x⟩)
  | connected {v as r x} : ConfiguredTrace v c url debug chunk as r →
      AloneTrace c url debug chunk (.connect url (.ok v) :: (as ++ [.finish v x])) r

theorem close_owned_calm (p : Provider σ V F) (v : V) (w : World σ) :
    ∃ x, Calm p w [.finish v x] ((Session.owned v).close p w) := by
  simp only [Session.close]
  cases hf : (w.debug "finalizing session").finish p v with
  | mk answer w₁ =>
      cases answer with
      | error c => exact ⟨.error c, .debug _ (.warned hf)⟩
      | ok u => exact ⟨.ok (), .debug _ (.single hf rfl)⟩

theorem copyAlone_trace (p : Provider σ V F) (c : Command) (url : Locator) (ctx : Context V)
    (w : World σ) :
    ∃ as, Calm p w as (c.copyAlone p url ctx w).2 ∧
      AloneTrace c url (c.debug || ctx.debug.getD false) ctx.chunk as
        (c.copyAlone p url ctx w).1 := by
  simp only [Command.copyAlone, Session.connect]
  cases hc : (w.debug ("connecting to volume " ++ url.volume ++ " on " ++ url.host ++ ":"
      ++ toString url.port.toNat)).connect p url with
  | mk answer w₁ =>
      cases answer with
      | error x => exact ⟨[.connect url (.error x)], .debug _ (.single hc rfl), .unconnected⟩
      | ok v =>
          obtain ⟨as, ha, ht⟩ := configureAndCopy_trace p v c url
            (c.debug || ctx.debug.getD false) ctx.chunk w₁
          obtain ⟨x, hx⟩ := close_owned_calm p v (Command.configureAndCopy p (.owned v) c url
            (c.debug || ctx.debug.getD false) ctx.chunk w₁).2
          exact ⟨.connect url (.ok v) :: (as ++ [.finish v x]),
            .debug _ (.act hc rfl (ha.trans hx)), .connected ht⟩

theorem copyWithin_trace (p : Provider σ V F) (c : Command) (path : VolumePath) (v : V)
    (ctx : Context V) (w : World σ) :
    ∃ as, Calm p w as (c.copyWithin p path v ctx w).2 ∧
      CopyTrace v path.text c.operand ctx.chunk as (c.copyWithin p path v ctx w).1 := by
  simp only [Command.copyWithin, Session.close]
  split
  · obtain ⟨as, ha, ht⟩ := copy_calm p v path.text c.operand ctx.chunk w
    exact ⟨as, ha.debugged _, ht⟩
  · obtain ⟨as, ha, ht⟩ := copy_calm p v path.text c.operand ctx.chunk
      (w.debug "session is already configured, ignoring translator options")
    exact ⟨as, .debug _ (ha.debugged _), ht⟩

/-! ## Commands -/

def Outcome.ofResult : Except Error Nat → Outcome
  | .ok _ => .success
  | .error e => .failure e.kind

namespace Command

/-- The command names its file in the way that the context asks for. -/
def Suits (c : Command) (ctx : Context V) : Prop :=
  match ctx.session, c.target with
  | some _, .path _ | none, .locator _ => True
  | _, _ => False

/-- All that a command which suits its context can do, and the result of its copy. -/
inductive Trace (c : Command) (ctx : Context V) : List (Act V F) → Except Error Nat → Prop where
  | alone {url as r} : ctx.session = none → c.target = .locator url →
      AloneTrace c url (c.debug || ctx.debug.getD false) ctx.chunk as r → Trace c ctx as r
  | within {v path as r} : ctx.session = some v → c.target = .path path →
      CopyTrace v path.text c.operand ctx.chunk as r → Trace c ctx as r

/-- What a command does in any context: one that does not suit it is refused at once. -/
inductive Ran (c : Command) (ctx : Context V) : List (Act V F) → Except Error Nat → Prop where
  | suited {as r} : c.Suits ctx → c.Trace ctx as r → Ran c ctx as r
  | refused {e} : ¬ c.Suits ctx → e.kind = .parse → Ran c ctx [] (.error e)

theorem carryOut_ran (p : Provider σ V F) (c : Command) (ctx : Context V) (w : World σ) :
    ∃ as, Calm p w as (c.carryOut p ctx w).2 ∧ c.Ran ctx as (c.carryOut p ctx w).1 := by
  unfold carryOut
  cases hs : ctx.session with
  | none =>
      cases ht : c.target with
      | path path => exact ⟨[], .refl w, .refused (by simp [Suits, hs, ht]) rfl⟩
      | locator url =>
          obtain ⟨as, ha, hr⟩ := copyAlone_trace p c url ctx w
          exact ⟨as, ha, .suited (by simp [Suits, hs, ht]) (.alone hs ht hr)⟩
  | some v =>
      cases ht : c.target with
      | locator url => exact ⟨[], .refl w, .refused (by simp [Suits, hs, ht]) rfl⟩
      | path path =>
          obtain ⟨as, ha, hr⟩ := copyWithin_trace p c path v ctx w
          exact ⟨as, ha, .suited (by simp [Suits, hs, ht]) (.within hs ht hr)⟩

/-- The notable event that a result ends with. -/
def closing : Except Error Nat → List Event
  | .ok _ => []
  | .error e => [⟨.error, e.message⟩]

theorem execute_course (p : Provider σ V F) (c : Command) (ctx : Context V) (w : World σ) :
    ∃ as es r, Course p w as es (c.execute p ctx w).2 ∧
      notable es = as.filterMap Act.warning? ++ closing r ∧ c.Ran ctx as r ∧
      (c.execute p ctx w).1 = .ofResult r := by
  obtain ⟨as, ⟨es, hc, he⟩, hr⟩ := carryOut_ran p c ctx w
  unfold execute
  cases hrun : c.carryOut p ctx w with
  | mk result w₁ =>
      rw [hrun] at hc hr
      cases result with
      | ok n =>
          have hd := hc.trans (.report ⟨.debug, c.operand ++ ": " ++ Copy.summary n⟩ (.refl _))
          rw [List.append_nil] at hd
          exact ⟨as, _, .ok n, hd, by rw [notable_append, he]; rfl, hr, rfl⟩
      | error e =>
          have hd := hc.trans (.report ⟨.error, e.message⟩ (.refl _))
          rw [List.append_nil] at hd
          exact ⟨as, _, .error e, hd, by rw [notable_append, he]; rfl, hr, rfl⟩

/-- A command that does not suit its context is refused before anything is done. -/
theorem execute_of_not_suits (p : Provider σ V F) {c : Command} {ctx : Context V}
    (h : ¬c.Suits ctx) (w : World σ) :
    ∃ message, c.execute p ctx w = (.failure .parse, w.report .error message) := by
  unfold Suits at h
  unfold execute carryOut
  cases hs : ctx.session with
  | none =>
      cases ht : c.target with
      | locator url => simp [hs, ht] at h
      | path path => exact ⟨_, rfl⟩
  | some v =>
      cases ht : c.target with
      | locator url => exact ⟨_, rfl⟩
      | path path => simp [hs, ht] at h

theorem execute_trace (p : Provider σ V F) {c : Command} {ctx : Context V} (h : c.Suits ctx)
    (w : World σ) :
    ∃ as r, Acts p w as (c.execute p ctx w).2 ∧ c.Trace ctx as r ∧
      (c.execute p ctx w).1 = .ofResult r := by
  obtain ⟨as, es, r, hc, -, hr, ho⟩ := execute_course p c ctx w
  cases hr with
  | suited _ ht => exact ⟨as, r, hc.acts, ht, ho⟩
  | refused hn _ => exact absurd h hn

end Command

end LockedCat
