import LockedCat.Export
import LockedCat.Memory
import LockedCat.Proofs.Protocol
import LockedCat.Proofs.Verdict

/-!
# What a run reports

A run can fail in several calls, and an error is wrapped in contexts on its way out. Main
statement: a run that fails reports one error, and its message holds the whole text of everything
that failed in the run; a run that succeeds reports none. Only the end of a session is kept out of
this, which is worth a warning of its own when it fails.
-/

namespace LockedCat

variable {σ V F α : Type}

/-! ## Messages -/

/-- The message holds the text in one piece. -/
def Says (message text : String) : Prop := text.toList <:+: message.toList

namespace Says

variable {message middle text : String}

theorem refl (text : String) : Says text text := List.infix_rfl

theorem trans (h : Says message middle) (h' : Says middle text) : Says message text :=
  List.IsInfix.trans h' h

theorem prepend (before : String) (h : Says message text) : Says (before ++ message) text := by
  rw [Says, String.toList_append]
  exact List.IsInfix.trans h (List.suffix_append ..).isInfix

theorem append (after : String) (h : Says message text) : Says (message ++ after) text := by
  rw [Says, String.toList_append]
  exact List.IsInfix.trans h (List.prefix_append ..).isInfix

end Says

theorem Chain.message_within (context : String) (c : Chain) :
    (c.within context).message = context ++ ": " ++ c.message := by
  cases c with
  | mk contexts root =>
      cases contexts <;>
        simp [Chain.message, Chain.texts, Chain.within, String.intercalate_cons_cons]

theorem Chain.says_within (context : String) (c : Chain) :
    Says (c.within context).message c.message := by
  rw [message_within]
  exact (Says.refl _).prepend _

theorem Chain.says_context (context : String) (c : Chain) :
    Says (c.within context).message context := by
  rw [message_within]
  exact ((Says.refl _).append _).append _

theorem Error.says_cause (e : Error) : Says e.message e.cause.message := (Says.refl _).prepend _

/-! ## Failures -/

/-- What a call failed with. A write that takes nothing has failed; a read or a write that was
interrupted has not. The end of a session does not count. -/
def Act.failure? : Act V F → Option Chain
  | connect _ (.error c) | setOption _ _ (.error c) | setLogging _ _ _ (.error c) => some c
  | openFile _ _ (.error e) | lock _ _ (.error e) | close _ (.error e) | flush (some e) =>
      some e.chain
  | read _ _ (.error e) | write _ (.error e) => if e.isInterrupted then none else some e.chain
  | write _ (.ok 0) => some (IoError.simple .writeZero).chain
  | _ => none

/-- A call that failed is blamed for it, unless it is a close. -/
theorem Act.failure?_eq_none {a : Act V F} (hb : a.blame? = none) (hc : a.isFailedClose = false) :
    a.failure? = none := by
  unfold failure?
  split <;> simp_all [blame?, isFailedClose]

/-- What is said of a result that is an error. -/
def said {ε : Type} (text : ε → String) : Except ε α → Option String
  | .ok _ => none
  | .error e => some (text e)

/-- Whatever failed among the acts is told in full by the message. Without one, nothing failed. -/
def Tells (as : List (Act V F)) (message : Option String) : Prop :=
  ∀ a ∈ as, ∀ c, a.failure? = some c → ∃ m, message = some m ∧ Says m c.message

namespace Tells

variable {as bs : List (Act V F)} {message : Option String}

theorem of_faithful (h : Faithful as none) (message : Option String) : Tells as message := by
  intro a ha c hf
  have hb : a.blame? = none := List.findSome?_eq_none_iff.mp h.2 a ha
  have hc : a.isFailedClose = false := by simpa using List.any_eq_false.mp h.1 a ha
  rw [Act.failure?_eq_none hb hc] at hf
  cases hf

theorem append (ha : Tells as message) (hb : Tells bs message) : Tells (as ++ bs) message := by
  intro a h
  rcases List.mem_append.mp h with h | h
  · exact ha a h
  · exact hb a h

theorem cons {a : Act V F} (hf : a.failure? = none) (h : Tells as message) :
    Tells (a :: as) message := by
  intro b hb c hc
  rcases List.mem_cons.mp hb with rfl | hb
  · rw [hf] at hc
    cases hc
  · exact h b hb c hc

theorem single {a : Act V F} {c : Chain} {m : String} (hf : a.failure? = some c)
    (hm : Says m c.message) : Tells [a] (some m) := by
  intro b hb c' hc
  rw [List.mem_singleton.mp hb, hf] at hc
  cases hc
  exact ⟨m, rfl, hm⟩

/-- A message that holds another one tells what that one does. -/
theorem widen {m m' : String} (h : Tells as (some m)) (hm : Says m' m) : Tells as (some m') := by
  intro a ha c hc
  obtain ⟨_, ⟨⟩, hs⟩ := h a ha c hc
  exact ⟨m', rfl, hm.trans hs⟩

end Tells

theorem WriteTrace.tells {bytes : List UInt8} {as : List (Act V F)} {e : IoError}
    (h : WriteTrace bytes as (.error e)) : Tells as (some e.chain.message) := by
  generalize hr : (.error e : Except IoError Unit) = r at h
  induction h with
  | done => cases hr
  | refused =>
      cases hr
      exact .single rfl (.refl _)
  | part _ _ ih => exact (ih hr).cons rfl
  | again _ he _ ih => exact (ih hr).cons (by simp [Act.failure?, he])
  | failed _ he =>
      cases hr
      exact .single (by simp [Act.failure?, he]) (.refl _)

theorem TransferTrace.tells {f : F} {size copied : Nat} {as : List (Act V F)} {c : Chain}
    (h : TransferTrace f size copied as (.error c)) : Tells as (some c.message) := by
  generalize hr : (.error c : Except Chain Nat) = r at h
  induction h with
  | finished => cases hr
  | unflushed =>
      cases hr
      exact (Tells.single rfl (Chain.says_within _ _)).cons rfl
  | chunk _ hw _ ih => exact ((Tells.of_faithful hw.faithful _).append (ih hr)).cons rfl
  | unwritten _ hw =>
      cases hr
      exact (hw.tells.widen (Chain.says_within _ _)).cons rfl
  | again he _ ih => exact (ih hr).cons (by simp [Act.failure?, he])
  | failed he =>
      cases hr
      exact .single (by simp [Act.failure?, he]) (Chain.says_within _ _)

/-- The message of an error whose cause is a failure that was reported in a context. -/
theorem Error.says_failure (kind : ErrorKind) (subject context : String) (c : Chain) :
    Says (Error.message ⟨kind, subject, c.within context⟩) c.message :=
  (Error.says_cause _).trans (Chain.says_within context c)

theorem LockTrace.tells {f : F} {path target : String} {chunk : Nat} {as : List (Act V F)}
    {r : Except Error Nat} (h : LockTrace f path target chunk as r) :
    Tells as (said Error.message r) := by
  cases h with
  | @unlocked e =>
      have hs := Error.says_failure (.copy .locking) target ("cannot lock " ++ path) e.chain
      exact Tells.single (c := e.chain) rfl hs
  | @broken as c ht =>
      have hs := Error.says_cause ⟨.copy .transfer, target, c⟩
      exact (ht.tells.widen hs).cons rfl
  | copied ht => exact .of_faithful (ht.faithful.cons rfl rfl) _

/-- An error before the close is one of locking or of the transfer. -/
theorem LockTrace.stage {f : F} {path target : String} {chunk : Nat} {as : List (Act V F)}
    {e : Error} (h : LockTrace f path target chunk as (.error e)) :
    ∃ stage, (stage = .locking ∨ stage = .transfer) ∧ e.kind = .copy stage := by
  cases h with
  | unlocked => exact ⟨.locking, .inl rfl, rfl⟩
  | broken _ => exact ⟨.transfer, .inr rfl, rfl⟩

theorem DirectiveTrace.tells {v : V} {ds : List Directive} {as : List (Act V F)}
    {r : Except Error Unit} (h : DirectiveTrace v ds as r) : Tells as (said Error.message r) := by
  induction h with
  | done => exact .of_faithful ⟨rfl, rfl⟩ _
  | accepted _ ih => exact ih.cons rfl
  | @rejected d rest c =>
      have hs := Error.says_failure .config d.key
        ("failed to apply translator option with value '" ++ d.value ++ "'") c
      exact Tells.single (c := c) rfl hs

/-! ## Closes -/

/-- A close that failed after something else had names the stage of that and tells it in full. -/
theorem Copy.closeContext_error {path : String} {e : Error} {stage : Stage}
    (h : e.kind = .copy stage) :
    closeContext path (.error e) =
      "cannot close file " ++ path ++ " after " ++ stage.name ++ " failure (" ++ e.message
        ++ ")" := by
  have hs : (e.kind.stage?.getD .opening).name = stage.name := by rw [h]; rfl
  have he : closeContext path (.error e) = "cannot close file " ++ path ++ " after "
      ++ (e.kind.stage?.getD .opening).name ++ " failure (" ++ e.message ++ ")" := rfl
  rw [he, hs]

/-- What the acts of a part of a run say of its result. Where a close failed, the result tells how
the file had fared before. -/
structure Told (target : String) (chunk : Nat) (as : List (Act V F)) (r : Except Error Nat) :
    Prop where
  failures : Tells as (said Error.message r)
  closes : ∀ f e, .close f (.error e) ∈ as → ∃ v path body prior,
    .openFile v path (.ok f) :: (body ++ [.close f (.error e)]) <:+: as ∧
      LockTrace f path target chunk body prior ∧
      r = .error ⟨.copy .closing, target, e.chain.within (Copy.closeContext path prior)⟩

namespace Told

variable {target : String} {chunk : Nat} {as before after : List (Act V F)} {r : Except Error Nat}

/-- Where no close failed. -/
theorem of_tells (h : Tells as (said Error.message r)) (hc : as.any Act.isFailedClose = false) :
    Told target chunk as r where
  failures := h
  closes f e hm := by
    have := List.any_eq_false.mp hc _ hm
    simp [Act.isFailedClose] at this

/-- What goes well around a part of a run changes nothing in what is told. -/
theorem within (hb : Faithful before none) (ha : Faithful after none)
    (h : Told target chunk as r) : Told target chunk (before ++ (as ++ after)) r where
  failures := (Tells.of_faithful hb _).append (h.failures.append (.of_faithful ha _))
  closes f e hm := by
    have hm : .close f (.error e) ∈ as := by
      simpa [hb.not_mem_close f e, ha.not_mem_close f e] using hm
    obtain ⟨v, path, body, prior, hi, hl, hr⟩ := h.closes f e hm
    exact ⟨v, path, body, prior, hi.trans ⟨before, after, by simp⟩, hl, hr⟩

end Told

theorem CopyTrace.told {v : V} {path target : String} {chunk : Nat} {as : List (Act V F)}
    {r : Except Error Nat} (h : CopyTrace v path target chunk as r) : Told target chunk as r := by
  cases h with
  | @unopened e =>
      have hs := Error.says_failure (.copy .opening) target
        ("cannot open " ++ path ++ " for reading") e.chain
      exact .of_tells (Tells.single (c := e.chain) rfl hs) rfl
  | @closed f as _ hl =>
      have hend : Faithful ([.close f (.ok ())] : List (Act V F)) none := ⟨rfl, rfl⟩
      apply Told.of_tells
      · exact (hl.tells.append (.of_faithful hend _)).cons rfl
      · simp [hl.faithful.1, Act.isFailedClose]
  | @unclosed f as prior e hl =>
      have hs := Error.says_failure (.copy .closing) target (Copy.closeContext path prior) e.chain
      constructor
      · have hlast : Tells ([.close f (.error e)] : List (Act V F)) (some _) :=
          Tells.single (c := e.chain) rfl hs
        refine ((?_ : Tells as (some _)).append hlast).cons rfl
        cases prior with
        | ok n => exact .of_faithful hl.faithful _
        | error e' =>
            obtain ⟨stage, -, hk⟩ := hl.stage
            refine hl.tells.widen ((Error.says_cause _).trans ((Chain.says_context _ _).trans ?_))
            rw [Copy.closeContext_error hk]
            exact ((Says.refl _).prepend _).append _
      · intro g e' hm
        have hnot := hl.faithful.not_mem_close g e'
        simp only [List.mem_cons, List.mem_append, hnot, List.not_mem_nil, reduceCtorEq, false_or,
          or_false, Act.close.injEq, Except.error.injEq] at hm
        obtain ⟨rfl, rfl⟩ := hm
        exact ⟨v, path, as, prior, List.infix_rfl, hl, rfl⟩

theorem ConfiguredTrace.told {v : V} {c : Command} {url : Locator} {debug : Bool} {chunk : Nat}
    {as : List (Act V F)} {r : Except Error Nat} (h : ConfiguredTrace v c url debug chunk as r) :
    Told c.operand chunk as r := by
  have hend : Faithful ([] : List (Act V F)) none := ⟨rfl, rfl⟩
  cases h with
  | rejected hd => exact .of_tells hd.tells hd.faithful.1
  | @unlogged as x hd _ =>
      have hs := Error.says_failure .config Config.debugLog "failed to set logging level" x
      apply Told.of_tells
      · exact (Tells.of_faithful hd.faithful _).append (.single (c := x) rfl hs)
      · simp [hd.faithful.1, Act.isFailedClose]
  | @logged as bs r hd _ hc =>
      have hl : Faithful ([.setLogging v Config.debugLog .debug (.ok ())] : List (Act V F)) none :=
        ⟨rfl, rfl⟩
      simpa using hc.told.within (hd.faithful.append hl) hend
  | quiet hd _ hc => simpa using hc.told.within hd.faithful hend

theorem AloneTrace.told {c : Command} {url : Locator} {debug : Bool} {chunk : Nat}
    {as : List (Act V F)} {r : Except Error Nat} (h : AloneTrace c url debug chunk as r) :
    Told c.operand chunk as r := by
  cases h with
  | @unconnected x =>
      exact .of_tells (.single (c := x) rfl (Error.says_cause ⟨.connect, url.display, x⟩)) rfl
  | @connected v as r x hc =>
      have hstart : Faithful ([.connect url (.ok v)] : List (Act V F)) none := ⟨rfl, rfl⟩
      have hend : Faithful ([.finish v x] : List (Act V F)) none := ⟨rfl, rfl⟩
      exact hc.told.within hstart hend

theorem Command.Ran.told {c : Command} {ctx : Context V} {as : List (Act V F)}
    {r : Except Error Nat} (h : c.Ran ctx as r) : Told c.operand ctx.chunk as r := by
  cases h with
  | suited _ ht =>
      cases ht with
      | alone _ _ h => exact h.told
      | within _ _ h => exact h.told
  | refused _ _ => exact .of_tells (.of_faithful ⟨rfl, rfl⟩ _) rfl

/-! ## Warnings -/

theorem Act.isCall_of_warning? {a : Act V F} {e : Event} (h : a.warning? = some e) : a.isCall := by
  unfold warning? at h
  split at h
  · rfl
  · cases h

theorem filterMap_warning?_calls (as : List (Act V F)) :
    (as.filter Act.isCall).filterMap Act.warning? = as.filterMap Act.warning? := by
  rw [List.filterMap_filter]
  congr 1
  funext a
  cases h : a.warning? with
  | none => simp
  | some e => simp [Act.isCall_of_warning? h]

theorem exists_finish_of_warning? {as : List (Act V F)} {e : Event}
    (h : e ∈ as.filterMap Act.warning?) : ∃ v c, .finish v (.error c) ∈ as ∧
      e = ⟨.warn, "failed to finalize session: " ++ c.message⟩ := by
  obtain ⟨a, ha, he⟩ := List.mem_filterMap.mp h
  unfold Act.warning? at he
  split at he
  · rename_i v c
    exact ⟨v, c, ha, (Option.some.inj he).symm⟩
  · cases he

/-- A session is ended once at most. -/
theorem Orderly.warnings {calls : List (Act V F)} (h : Orderly calls) {v : V} {c : Chain}
    (hm : .finish v (.error c) ∈ calls) :
    calls.filterMap Act.warning? = [⟨.warn, "failed to finalize session: " ++ c.message⟩] := by
  obtain ⟨before, after, rfl⟩ := List.append_of_mem hm
  obtain rfl := h.last before v (.error c) after rfl
  have hbefore : before.filterMap Act.warning? = [] := by
    rw [List.filterMap_eq_nil_iff]
    intro a ha
    cases hw : a.warning? with
    | none => rfl
    | some e =>
        obtain ⟨u, x, hx, -⟩ := exists_finish_of_warning? (List.mem_filterMap.mpr ⟨a, ha, hw⟩)
        obtain ⟨b₁, b₂, rfl⟩ := List.append_of_mem hx
        have := h.last b₁ u (.error x) (b₂ ++ [.finish v (.error c)]) (by simp)
        simp at this
  rw [List.filterMap_append, hbefore]
  rfl

theorem Command.Ran.warnings {c : Command} {ctx : Context V} {as : List (Act V F)}
    {r : Except Error Nat} (h : c.Ran ctx as r) {v : V} {x : Chain}
    (hm : .finish v (.error x) ∈ as) :
    as.filterMap Act.warning? = [⟨.warn, "failed to finalize session: " ++ x.message⟩] := by
  have hcall : .finish v (.error x) ∈ as.filter Act.isCall := List.mem_filter.mpr ⟨hm, rfl⟩
  cases h with
  | refused => cases hm
  | suited _ ht =>
      cases ht with
      | alone _ _ ha =>
          rw [← filterMap_warning?_calls]
          exact ha.calls.orderly.warnings hcall
      | within _ _ hc =>
          have := hc.calls.rank_mem _ hcall
          simp [Act.rank] at this

/-! ## What providers say -/

/-- The notes are of no more than passing interest. -/
def Reply.Discreet {ε : Type} (r : Reply σ ε α) : Prop :=
  ∀ e, .event e ∈ r.notes → e.level = .debug

/-- A provider that says nothing notable of itself. -/
structure Provider.Discreet (p : Provider σ V F) : Prop where
  connect : ∀ url s, (p.connect url s).Discreet
  setOption : ∀ v d s, (p.setOption v d s).Discreet
  setLogging : ∀ v sink level s, (p.setLogging v sink level s).Discreet
  openFile : ∀ v path s, (p.openFile v path s).Discreet
  lock : ∀ f kind s, (p.lock f kind s).Discreet
  read : ∀ f size s, (p.read f size s).Discreet
  close : ∀ f s, (p.close f s).Discreet
  finish : ∀ v s, (p.finish v s).Discreet

theorem World.events_report (w : World σ) (e : Event) :
    (w.report e.level e.message).events = w.events ++ [e] := by
  simp [events, report, Entry.event?]

theorem Reply.Discreet.notable {ε : Type} {r : Reply σ ε α} (h : r.Discreet) :
    notable ((r.notes.map Note.entry).filterMap Entry.event?) = [] := by
  rw [LockedCat.notable, List.filterMap_map, List.filter_eq_nil_iff]
  intro e hm
  obtain ⟨n, hn, he⟩ := List.mem_filterMap.mp hm
  cases n with
  | event e' =>
      obtain rfl := Option.some.inj he
      simp [h e' hn]
  | line | record => cases he

theorem World.notable_accept {ε : Type} {w w' : World σ} {entry : Except ε α → Entry}
    {r : Reply σ ε α} {answer : Except ε α} (hr : r.Discreet)
    (hentry : ∀ answer, (entry answer).event? = none) (h : w.accept entry r = (answer, w')) :
    notable w'.events = notable w.events := by
  cases h
  have hevents : (w.accept entry r).2.events =
      w.events ++ (r.notes.map Note.entry).filterMap Entry.event? := by
    rw [events, accept, Array.toList_appendList, Array.toList_push, List.filterMap_append,
      List.filterMap_append, List.filterMap_cons_none (hentry r.result), List.filterMap_nil,
      List.append_nil]
    rfl
  show notable (w.accept entry r).2.events = notable w.events
  rw [hevents, notable_append, hr.notable, List.append_nil]

theorem Act.Does.notable {p : Provider σ V F} (hp : p.Discreet) {w w' : World σ} {a : Act V F}
    (h : a.Does p w w') : notable w'.events = notable w.events := by
  cases a with
  | connect url r => exact World.notable_accept (hp.connect url w.state) (fun _ => rfl) h
  | setOption v d r => exact World.notable_accept (hp.setOption v d w.state) (fun _ => rfl) h
  | setLogging v sink level r =>
      exact World.notable_accept (hp.setLogging v sink level w.state) (fun _ => rfl) h
  | openFile v path r => exact World.notable_accept (hp.openFile v path w.state) (fun _ => rfl) h
  | lock f kind r => exact World.notable_accept (hp.lock f kind w.state) (fun _ => rfl) h
  | read f size r => exact World.notable_accept (hp.read f size w.state) (fun _ => rfl) h
  | close f r => exact World.notable_accept (hp.close f w.state) (fun _ => rfl) h
  | finish v r => exact World.notable_accept (hp.finish v w.state) (fun _ => rfl) h
  | write bytes r =>
      cases h
      simp [World.events, Entry.event?, List.filterMap_cons]
  | flush r =>
      cases h
      simp [World.events, Entry.event?, List.filterMap_cons]

/-- With such a provider, what is notable in the journal is what the command reported. -/
theorem Course.notable_events {p : Provider σ V F} (hp : p.Discreet) {w w' : World σ}
    {as : List (Act V F)} {es : List Event} (h : Course p w as es w') :
    notable w'.events = notable w.events ++ notable es := by
  induction h with
  | refl => simp [notable]
  | report e _ ih =>
      rw [ih, World.events_report, notable_append, List.append_assoc, ← notable_append,
        List.singleton_append]
  | act ha _ ih => rw [ih, ha.notable hp]

theorem Reply.Discreet.of_silent {ε : Type} {r : Reply σ ε α} (h : r.notes = []) : r.Discreet := by
  intro e he
  rw [h] at he
  cases he

theorem Script.discreet : Script.provider.Discreet := by
  have hreply : ∀ {ε α : Type} (s : Script.State) (value : α) (failure : Option ε),
      (Script.reply s value failure).Discreet := by
    intro ε α s value failure
    cases failure <;> exact .of_silent rfl
  exact {
    connect := fun _ s => hreply s _ _
    setOption := fun _ _ s => hreply s _ _
    setLogging := fun _ _ _ s => hreply s _ _
    openFile := fun _ _ s => by
      apply Reply.Discreet.of_silent
      simp only [Script.provider]
      split <;> rfl
    lock := fun _ _ s => hreply s _ _
    read := fun _ _ _ => .of_silent rfl
    close := fun _ s => hreply s _ _
    finish := fun _ s => hreply s _ _ }

theorem Memory.discreet : Memory.provider.Discreet where
  connect _ _ := .of_silent rfl
  setOption _ d s e h := by
    change _ ∈ (s.setOption d).notes at h
    unfold State.setOption at h
    split at h
    · cases h
    · split at h <;> cases h
  setLogging _ _ _ _ := .of_silent rfl
  openFile _ path s e h := by
    change _ ∈ (s.openFile path).notes at h
    unfold State.openFile at h
    split at h
    · cases h
    · split at h <;> cases h
  lock f kind s e h := by
    change _ ∈ (s.lock f kind).notes at h
    unfold State.lock at h
    split at h
    · cases h
    · dsimp only at h
      split at h <;> cases h
  read f size s e h := by
    change _ ∈ (s.read f size).notes at h
    unfold State.read at h
    split at h <;> cases h
  close f s e h := by
    change _ ∈ (s.close f).notes at h
    unfold State.close at h
    split at h <;> cases h
  finish _ _ := .of_silent rfl

namespace Export

theorem State.say_discreet {s : State} {v : Nat} {message : String} {e : Event}
    (h : .event e ∈ (s.say v message).2) : e.level = .debug := by
  unfold say at h
  split at h
  · simp only [List.mem_singleton, Note.event.injEq] at h
    rw [h]
  · split at h
    · split at h <;> simp at h
    · simp at h

theorem discreet : provider.Discreet where
  connect url s e h := by
    change _ ∈ (s.connect url).notes at h
    unfold State.connect at h
    split at h
    · cases h
    · split at h
      · cases h
      · dsimp only at h
        split at h
        · cases h
        · cases h
        · simp only [List.mem_singleton, Note.event.injEq] at h
          rw [h]
  setOption v d s e h := by
    change _ ∈ (s.setOption v d).notes at h
    unfold State.setOption at h
    split at h
    · cases h
    · dsimp only at h
      split at h
      · exact State.say_discreet h
      · rcases List.mem_append.mp h with h | h <;> exact State.say_discreet h
  setLogging v sink level s e h := by
    change _ ∈ (s.setLogging v sink level).notes at h
    unfold State.setLogging at h
    split at h <;> cases h
  openFile v path s e h := by
    change _ ∈ (s.openFile v path).notes at h
    unfold State.openFile at h
    split at h
    · cases h
    · split at h
      · cases h
      · dsimp only at h
        split at h <;> exact State.say_discreet h
  lock f kind s e h := by
    change _ ∈ (s.lock f kind).notes at h
    unfold State.lock at h
    split at h
    · cases h
    · split at h
      · exact State.say_discreet h
      · cases h
  read f size s e h := by
    change _ ∈ (s.read f size).notes at h
    unfold State.read at h
    split at h <;> cases h
  close f s e h := by
    change _ ∈ (s.close f).notes at h
    unfold State.close at h
    split at h
    · cases h
    · exact State.say_discreet h
  finish v s e h := by
    change _ ∈ (s.finish v).notes at h
    unfold State.finish at h
    split at h
    · cases h
    · exact State.say_discreet h

end Export

/-! ## Accounts -/

/-- The events of one level. -/
def eventsAt (level : Level) (es : List Event) : List Event := es.filter (·.level = level)

theorem eventsAt_append (level : Level) (es fs : List Event) :
    eventsAt level (es ++ fs) = eventsAt level es ++ eventsAt level fs := List.filter_append ..

theorem eventsAt_notable {level : Level} (h : level ≠ .debug) (es : List Event) :
    eventsAt level (notable es) = eventsAt level es := by
  rw [eventsAt, notable, List.filter_filter]
  congr 1
  funext e
  by_cases he : e.level = level <;> simp [he, h]

/-- How the acts of a run, what was reported on the way and the way it ended belong together. -/
structure Accounted (c : Command) (chunk : Nat) (as : List (Act V F)) (es : List Event)
    (o : Outcome) : Prop where
  ended : o = .success ∨ ∃ kind, o = .failure kind
  success : o = .success → eventsAt .error es = [] ∧ ∀ a ∈ as, a.failure? = none
  failure : ∀ kind, o = .failure kind → ∃ message, eventsAt .error es = [⟨.error, message⟩] ∧
    (∀ a ∈ as, ∀ x, a.failure? = some x → Says message x.message) ∧
    ∀ f e, .close f (.error e) ∈ as → Says message e.chain.message ∧ ∃ v path body prior,
      .openFile v path (.ok f) :: (body ++ [.close f (.error e)]) <:+: as ∧
        LockTrace f path c.operand chunk body prior ∧
        ∀ before, prior = .error before → ∃ stage, (stage = .locking ∨ stage = .transfer) ∧
          before.kind = .copy stage ∧
          Says message (" after " ++ stage.name ++ " failure (" ++ before.message ++ ")")
  warned : ∀ v x, .finish v (.error x) ∈ as →
    ∃ message, eventsAt .warn es = [⟨.warn, message⟩] ∧ Says message x.message
  unwarned : (∀ v x, .finish v (.error x) ∉ as) → eventsAt .warn es = []

/-- What is notable about a run splits into its warnings and the error that it ends with. -/
theorem events_of_notable {as : List (Act V F)} {es : List Event} {r : Except Error Nat}
    (h : notable es = as.filterMap Act.warning? ++ Command.closing r) :
    eventsAt .warn es = as.filterMap Act.warning? ∧ eventsAt .error es = Command.closing r := by
  have hw : ∀ e ∈ as.filterMap Act.warning?, e.level = .warn := by
    intro e he
    obtain ⟨v, c, -, rfl⟩ := exists_finish_of_warning? he
    rfl
  have hc : ∀ e ∈ Command.closing r, e.level = .error := by
    intro e he
    cases r with
    | ok n => cases he
    | error e' => rw [List.mem_singleton.mp he]
  have hwarn : Level.warn ≠ .debug := by decide
  have herror : Level.error ≠ .debug := by decide
  rw [← eventsAt_notable hwarn, ← eventsAt_notable herror, h, eventsAt_append, eventsAt_append]
  constructor
  · have hnone : eventsAt .warn (Command.closing r) = [] := by
      rw [eventsAt, List.filter_eq_nil_iff]
      intro e he
      simp [hc e he]
    rw [hnone, List.append_nil, eventsAt, List.filter_eq_self]
    intro e he
    simp [hw e he]
  · have hnone : eventsAt .error (as.filterMap Act.warning?) = [] := by
      rw [eventsAt, List.filter_eq_nil_iff]
      intro e he
      simp [hw e he]
    rw [hnone, List.nil_append, eventsAt, List.filter_eq_self]
    intro e he
    simp [hc e he]

/-- What the message of a failed close says of an error before it. -/
theorem Error.says_prior {target path : String} {e : IoError} {before : Error} {stage : Stage}
    (h : before.kind = .copy stage) :
    Says (Error.message
        ⟨.copy .closing, target, e.chain.within (Copy.closeContext path (.error before))⟩)
      (" after " ++ stage.name ++ " failure (" ++ before.message ++ ")") := by
  have hcontext : Says (Copy.closeContext path (.error before))
      (" after " ++ stage.name ++ " failure (" ++ before.message ++ ")") := by
    have hsplit : "cannot close file " ++ path ++ " after " ++ stage.name ++ " failure ("
        ++ before.message ++ ")" = "cannot close file " ++ path ++
          (" after " ++ stage.name ++ " failure (" ++ before.message ++ ")") := by
      simp only [String.append_assoc]
    rw [Copy.closeContext_error h, hsplit]
    exact (Says.refl _).prepend _
  exact (Error.says_cause _).trans ((Chain.says_context _ _).trans hcontext)

theorem Command.Ran.accounted {c : Command} {ctx : Context V} {as : List (Act V F)}
    {es : List Event} {r : Except Error Nat} (h : c.Ran ctx as r)
    (he : notable es = as.filterMap Act.warning? ++ closing r) :
    Accounted c ctx.chunk as es (.ofResult r) := by
  obtain ⟨hwarn, herror⟩ := events_of_notable he
  constructor
  · cases r with
    | ok n => exact .inl rfl
    | error e => exact .inr ⟨e.kind, rfl⟩
  · intro ho
    cases r with
    | error e => cases ho
    | ok n =>
        refine ⟨herror, fun a ha => ?_⟩
        cases hf : a.failure? with
        | none => rfl
        | some x =>
            obtain ⟨m, hm, -⟩ := h.told.failures a ha x hf
            cases hm
  · intro kind ho
    cases r with
    | ok n => cases ho
    | error e =>
        refine ⟨e.message, herror, fun a ha x hx => ?_, fun f x hx => ?_⟩
        · obtain ⟨_, ⟨⟩, hs⟩ := h.told.failures a ha x hx
          exact hs
        · obtain ⟨_, ⟨⟩, hs⟩ := h.told.failures _ hx x.chain rfl
          obtain ⟨v, path, body, prior, hi, hl, he⟩ := h.told.closes f x hx
          refine ⟨hs, v, path, body, prior, hi, hl, fun before hb => ?_⟩
          subst hb
          obtain ⟨stage, hstage, hk⟩ := hl.stage
          refine ⟨stage, hstage, hk, ?_⟩
          rw [Except.error.inj he]
          exact Error.says_prior hk
  · intro v x hx
    rw [hwarn, h.warnings hx]
    exact ⟨_, rfl, (Says.refl _).prepend _⟩
  · intro hno
    rw [hwarn, List.filterMap_eq_nil_iff]
    intro a ha
    cases hw : a.warning? with
    | none => rfl
    | some e =>
        obtain ⟨v, x, hx, -⟩ := exists_finish_of_warning? (List.mem_filterMap.mpr ⟨a, ha, hw⟩)
        exact absurd hx (hno v x)

/-- No failure is swallowed and none is reported twice. -/
theorem Command.execute_accounts (p : Provider σ V F) (c : Command) (ctx : Context V)
    (w : World σ) :
    ∃ as es, Course p w as es (c.execute p ctx w).2 ∧
      Accounted c ctx.chunk as es (c.execute p ctx w).1 ∧
      (p.Discreet → ∀ level, level ≠ .debug →
        eventsAt level (c.execute p ctx w).2.events
          = eventsAt level w.events ++ eventsAt level es) := by
  obtain ⟨as, es, r, hc, he, hran, ho⟩ := execute_course p c ctx w
  refine ⟨as, es, hc, ho ▸ hran.accounted he, fun hp level hl => ?_⟩
  rw [← eventsAt_notable hl, hc.notable_events hp, eventsAt_append, eventsAt_notable hl,
    eventsAt_notable hl]

end LockedCat
