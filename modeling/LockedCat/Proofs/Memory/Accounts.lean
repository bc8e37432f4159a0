import LockedCat.Proofs.Memory.Steps

/-!
# What a volume in memory counts

A volume in memory counts what is done to it. Main statement: in every state that comes about from a
volume as it was made, each of its counts says of the journal just what it is meant to say, and a
file that is open is counted as open. A copy and a run of the command leave the count of open files
as they found it, and a run ends the session that it made.
-/

namespace LockedCat

/-! ## The journal -/

namespace Entry

/-- A file was opened. -/
@[simp] def isOpened : Entry → Bool
  | call (.openFile _) none => true
  | _ => false

/-- A session was connected. -/
def isConnected : Entry → Bool
  | call (.connect _) none => true
  | _ => false

@[simp] def isClose : Entry → Bool
  | call .close _ => true
  | _ => false

@[simp] def isFinish : Entry → Bool
  | call .finish _ => true
  | _ => false

/-- The lock that was asked for. -/
@[simp] def lock? : Entry → Option LockKind
  | call (.lock kind) _ => some kind
  | _ => none

/-- How much a read asked for. -/
@[simp] def asked? : Entry → Option Nat
  | read size _ => some size
  | _ => none

end Entry

namespace Memory

/-! ## Open files -/

namespace State

variable {s : State} {f : Nat} {h : Handle}

/-- How many files are open. -/
def live (s : State) : Nat := s.handles.countP Option.isSome

theorem live_pos (hf : s.handle? f = some h) : 0 < s.live := by
  have hmem := List.getElem_mem (lt_of_handle? hf)
  rw [getElem_of_handle? hf] at hmem
  exact List.countP_pos_iff.mpr ⟨_, hmem, rfl⟩

theorem live_setHandle (hf : s.handle? f = some h) (x : Option Handle) :
    (s.setHandle f x).live + 1 = s.live + x.toList.length := by
  have hpos := live_pos hf
  have hset := List.countP_set (p := Option.isSome) (a := x) (lt_of_handle? hf)
  rw [getElem_of_handle? hf, Option.isSome_some, if_pos rfl] at hset
  unfold live at hpos ⊢
  rw [setHandle, hset]
  cases x with
  | none =>
      rw [Option.isSome_none, if_neg Bool.false_ne_true, Option.toList_none, List.length_nil]
      omega
  | some h' =>
      rw [Option.isSome_some, if_pos rfl, Option.toList_some, List.length_singleton]
      omega

theorem live_drop_le (s : State) (f : Nat) : (s.drop f).live ≤ s.live := by
  show (s.handles.set f none).countP Option.isSome ≤ s.handles.countP Option.isSome
  rcases Nat.lt_or_ge f s.handles.length with hl | hl
  · rw [List.countP_set hl]
    simp
  · exact Nat.le_of_eq (congrArg _ (List.set_eq_of_length_le hl))

end State

/-! ## Tallies -/

/-- What can be counted of what is done to a volume. -/
structure Tally where
  /-- How many files were opened. -/
  opened : Nat
  /-- How many of them were closed. -/
  closed : Nat
  /-- The locks that were asked for, in order. -/
  locks : List LockKind
  /-- How many reads there were. -/
  reads : Nat
  /-- The most that one of them asked for. -/
  most : Nat
  /-- How often a session was ended. -/
  finished : Nat

/-- What a volume has counted. Whatever was opened is counted as open, or it was closed. -/
def State.tally (s : State) : Tally where
  opened := s.openHandles + s.closeCount
  closed := s.closeCount
  locks := s.locksTaken
  reads := s.readCalls
  most := s.mostAsked
  finished := s.finishCount

namespace Tally

/-- What a journal says. -/
def of (es : List Entry) : Tally where
  opened := es.countP Entry.isOpened
  closed := es.countP Entry.isClose
  locks := es.filterMap Entry.lock?
  reads := (es.filterMap Entry.asked?).length
  most := (es.filterMap Entry.asked?).max?.getD 0
  finished := es.countP Entry.isFinish

/-- The tally after one more entry of the journal. -/
def after (t : Tally) : Entry → Tally
  | .call (.openFile _) none => { t with opened := t.opened + 1 }
  | .call .close _ => { t with closed := t.closed + 1 }
  | .call (.lock kind) _ => { t with locks := t.locks ++ [kind] }
  | .read size _ => { t with reads := t.reads + 1, most := max t.most size }
  | .call .finish _ => { t with finished := t.finished + 1 }
  | _ => t

theorem max?_concat (sizes : List Nat) (size : Nat) :
    (sizes ++ [size]).max?.getD 0 = max (sizes.max?.getD 0) size := by
  have hfold (l : List Nat) : l.max?.getD 0 = l.foldl max 0 := by
    rw [List.foldl_max, Nat.zero_max]
  rw [hfold, hfold, List.foldl_append]
  rfl

theorem of_concat (es : List Entry) (e : Entry) : of (es ++ [e]) = (of es).after e := by
  have hcount (p : Entry → Bool) :
      (es ++ [e]).countP p = es.countP p + if p e then 1 else 0 := by
    rw [List.countP_append, List.countP_singleton]
  have hlist {α : Type} (g : Entry → Option α) :
      (es ++ [e]).filterMap g = es.filterMap g ++ (g e).toList := by
    cases hg : g e <;> simp [hg]
  unfold of
  rw [hcount, hcount, hcount, hlist, hlist]
  cases e with
  | call c failure =>
      cases c with
      | openFile path =>
          cases failure with
          | none => simp [after]
          | some e => simp [after]
      | _ => simp [after]
  | read size answer => simp [after, max?_concat]
  | _ => simp [after]

end Tally

/-! ## Accounts -/

/-- What a volume has counted is what the journal says, and no more files are open than are counted
as open. -/
structure Accounted (w : World State) : Prop where
  tally : w.state.tally = .of w.recorded
  live : w.state.live ≤ w.state.openHandles

/-- The second state has one more entry of the journal in its tally than the first. -/
structure Counts (s : State) (e : Entry) (s' : State) : Prop where
  tally : s'.tally = s.tally.after e
  live : s'.live ≤ s'.openHandles

namespace Counts

variable {s : State} {f : Nat} {h : Handle}

theorem setOption (hl : s.live ≤ s.openHandles) (d : Directive) (failure : Option Chain) :
    Counts s (.call (.setOption d) failure) (s.setOption d).state := by
  unfold State.setOption
  split
  · exact ⟨rfl, hl⟩
  · split <;> exact ⟨rfl, hl⟩

theorem openFile (hl : s.live ≤ s.openHandles) (path : String) :
    Counts s (.call (.openFile path) (World.failure IoError.chain (s.openFile path).result))
      (s.openFile path).state := by
  rcases s.openFile_eq path with ⟨e, ho⟩ | ⟨contents, ho⟩
  · rw [ho]
    exact ⟨rfl, hl⟩
  · rw [ho]
    refine ⟨?_, ?_⟩
    · simp only [State.tally, Tally.after, World.failure]
      rw [Nat.add_right_comm]
    · simpa [State.live] using hl

/-- A lock that is refused is counted like one that is granted. -/
theorem lock (hl : s.live ≤ s.openHandles) (hf : s.handle? f = some h) (kind : LockKind)
    (failure : Option Chain) : Counts s (.call (.lock kind) failure) (s.lock f kind).state := by
  obtain ⟨h', hs⟩ := State.lock_eq hf kind
  have hlive : (s.setHandle f (some h')).live + 1 = s.live + 1 := State.live_setHandle hf _
  rw [hs]
  exact ⟨rfl, Nat.le_trans (Nat.le_of_eq (Nat.succ.inj hlive)) hl⟩

/-- A read that fails is counted like one that does not. -/
theorem read (hl : s.live ≤ s.openHandles) (hf : s.handle? f = some h) (size : Nat)
    (answer : Except IoError (List UInt8)) :
    Counts s (.read size answer) (s.read f size).state := by
  obtain ⟨h', hs⟩ := State.read_eq hf size
  have hlive : (s.setHandle f (some h')).live + 1 = s.live + 1 := State.live_setHandle hf _
  rw [hs]
  exact ⟨rfl, Nat.le_trans (Nat.le_of_eq (Nat.succ.inj hlive)) hl⟩

/-- A file that can be closed is counted as open, so that the count is not taken below zero. -/
theorem close (hl : s.live ≤ s.openHandles) (hf : s.handle? f = some h)
    (failure : Option Chain) : Counts s (.call .close failure) (s.close f).state := by
  have hpos := State.live_pos hf
  have hlive : (s.setHandle f none).live + 1 = s.live := State.live_setHandle hf none
  rw [State.close_eq hf]
  constructor
  · have hopened : s.openHandles - 1 + (s.closeCount + 1) = s.openHandles + s.closeCount := by
      omega
    simp only [State.tally, Tally.after, State.setHandle, hopened]
  · show (s.setHandle f none).live ≤ s.openHandles - 1
    omega

end Counts

variable {w w' : World State} {a : Act Unit Nat}

/-- Every act is counted as the journal has it. -/
theorem counts_act (ha : a.Does provider w w') (hp : Possible w.state a)
    (hl : w.state.live ≤ w.state.openHandles) : Counts w.state a.entry w'.state := by
  cases a with
  | connect | setLogging | finish =>
      cases ha
      exact ⟨rfl, hl⟩
  | setOption v d r =>
      obtain ⟨-, rfl⟩ := Prod.mk.inj ha
      exact .setOption hl d _
  | openFile v path r =>
      cases ha
      exact .openFile hl path
  | lock f kind r =>
      obtain ⟨h, hf⟩ := hp
      obtain ⟨-, rfl⟩ := Prod.mk.inj ha
      exact .lock hl hf kind _
  | read f size r =>
      obtain ⟨h, hf⟩ := hp
      obtain ⟨-, rfl⟩ := Prod.mk.inj ha
      exact .read hl hf size r
  | close f r =>
      obtain ⟨h, hf⟩ := hp
      obtain ⟨-, rfl⟩ := Prod.mk.inj ha
      exact .close hl hf _
  | write bytes r =>
      obtain ⟨-, -, hstate⟩ := World.write_eq ha
      rw [hstate]
      exact ⟨rfl, hl⟩
  | flush r =>
      obtain ⟨-, -, hstate⟩ := World.flush_eq ha
      rw [hstate]
      exact ⟨rfl, hl⟩

theorem Accounted.step (h : Accounted w) (hs : Step w w') : Accounted w' := by
  cases hs with
  | act ha hp =>
      obtain ⟨htally, hlive⟩ := counts_act ha hp h.live
      refine ⟨?_, hlive⟩
      rw [htally, h.tally, ha.recorded, Tally.of_concat]
  | report level message => exact ⟨by rw [World.recorded_report]; exact h.tally, h.live⟩
  | drop f => exact ⟨h.tally, Nat.le_trans (w.state.live_drop_le f) h.live⟩
  | turn sink => exact ⟨h.tally, h.live⟩

theorem Accounted.reaches (h : Accounted w) (hr : Reaches w w') : Accounted w' := by
  induction hr with
  | refl => exact h
  | tail _ hs ih => exact ih.step hs

/-! ## Sessions -/

section Lasting

variable {V F : Type} {as : List (Act V F)}

/-- An act that no session begins or ends with. -/
def Lasting (a : Act V F) : Prop := a.entry.isConnected = false ∧ a.entry.isFinish = false

theorem lasting_of_not_isOfSession {a : Act V F} (h : a.isOfSession = false) : Lasting a := by
  cases a <;> first | exact ⟨rfl, rfl⟩ | cases h

theorem lasting_of_directives {v : V} {ds : List Directive} {r : Except Error Unit}
    (h : DirectiveTrace v ds as r) : ∀ a ∈ as, Lasting a := by
  induction h with
  | done => exact List.forall_mem_nil _
  | accepted _ ih => exact List.forall_mem_cons.mpr ⟨⟨rfl, rfl⟩, ih⟩
  | rejected => exact List.forall_mem_singleton.mpr ⟨rfl, rfl⟩

theorem lasting_of_copy {v : V} {path target : String} {chunk : Nat} {r : Except Error Nat}
    (h : CopyTrace v path target chunk as r) : ∀ a ∈ as, Lasting a :=
  fun a ha => lasting_of_not_isOfSession (h.not_isOfSession a ha)

theorem lasting_of_configured {v : V} {c : Command} {url : Locator} {debug : Bool} {chunk : Nat}
    {r : Except Error Nat} (h : ConfiguredTrace v c url debug chunk as r) :
    ∀ a ∈ as, Lasting a := by
  cases h with
  | rejected hd => exact lasting_of_directives hd
  | unlogged hd =>
      exact List.forall_mem_append.mpr ⟨lasting_of_directives hd,
        List.forall_mem_singleton.mpr ⟨rfl, rfl⟩⟩
  | logged hd _ hc =>
      exact List.forall_mem_append.mpr ⟨lasting_of_directives hd,
        List.forall_mem_cons.mpr ⟨⟨rfl, rfl⟩, lasting_of_copy hc⟩⟩
  | quiet hd _ hc =>
      exact List.forall_mem_append.mpr ⟨lasting_of_directives hd, lasting_of_copy hc⟩

theorem countP_of_lasting (h : ∀ a ∈ as, Lasting a) :
    (as.map Act.entry).countP Entry.isConnected = 0 ∧
      (as.map Act.entry).countP Entry.isFinish = 0 := by
  simp only [List.countP_eq_zero, List.forall_mem_map, Bool.not_eq_true]
  exact ⟨fun a ha => (h a ha).1, fun a ha => (h a ha).2⟩

/-- A run of the command ends the session that it made, and no other. -/
theorem finishes_of_trace {c : Command} {ctx : Context V} {r : Except Error Nat}
    (h : c.Trace ctx as r) :
    (as.map Act.entry).countP Entry.isFinish = (as.map Act.entry).countP Entry.isConnected := by
  cases h with
  | within _ _ hc =>
      obtain ⟨hconnected, hfinish⟩ := countP_of_lasting (lasting_of_copy hc)
      rw [hconnected, hfinish]
  | alone _ _ ha =>
      cases ha with
      | unconnected => rfl
      | connected hc =>
          obtain ⟨hconnected, hfinish⟩ := countP_of_lasting (lasting_of_configured hc)
          simp only [List.map_cons, List.map_append, List.map_nil, List.countP_cons,
            List.countP_append, List.countP_nil, hconnected, hfinish]
          rfl

end Lasting

/-- How many sessions of their owner a deed ends that puts these entries in the journal: the one
that it closes, or those that it made itself. -/
def sessionsEnded : Deed → List Entry → Nat
  | .closeSession s, _ => if s.isOwned then 1 else 0
  | .run .., entries => entries.countP Entry.isConnected
  | _, _ => 0

/-- The first world has come to the second, with so many sessions ended on the way. -/
def Ends (w : World State) (ended : List Entry → Nat) (w' : World State) : Prop :=
  ∃ entries, w'.recorded = w.recorded ++ entries ∧ entries.countP Entry.isFinish = ended entries

theorem Ends.refl (w : World State) : Ends w (fun _ => 0) w := ⟨[], by simp, rfl⟩

theorem ends_of_acts {w w' : World State} {as : List (Act Unit Nat)} (h : Acts provider w as w')
    (hs : ∀ a ∈ as, a.entry.isFinish = false) : Ends w (fun _ => 0) w' := by
  refine ⟨_, h.recorded, List.countP_eq_zero.mpr (List.forall_mem_map.mpr fun a ha => ?_)⟩
  rw [hs a ha]
  nofun

theorem ends_of_act {w w' : World State} {a : Act Unit Nat} (h : a.Does provider w w')
    (ha : a.entry.isFinish = false) : Ends w (fun _ => 0) w' :=
  ends_of_acts (.act h (.refl w')) (List.forall_mem_singleton.mpr ha)

/-- The sink says nothing of what is in the journal. -/
theorem ends_of_turn {w w' : World State} {ended : List Entry → Nat} {sink : Sink}
    (h : Ends { w with sink := sink } ended w') : Ends w ended w' := h

theorem ends_of_open {w w' : World State} {f : Nat} (h : Ends w (fun _ => 0) w') :
    Ends w (fun _ => 0) (if (w.state.handle? f).isSome then w' else w) := by
  split
  · exact h
  · exact .refl w

theorem ends_closeSession (w : World State) (s : Session Unit) :
    Ends w (fun _ => if s.isOwned then 1 else 0) (s.close provider w) := by
  cases s with
  | borrowed v => exact ⟨[], by simp [Session.close, World.debug], rfl⟩
  | owned v =>
      obtain ⟨x, h⟩ := close_owned_calm provider v w
      exact ⟨_, h.acts.recorded, rfl⟩

theorem ends_run (w : World State) (words : List Text.Glyphs) (connected : Bool)
    (ctx : Context Unit) : Ends w (fun entries => entries.countP Entry.isConnected)
      (Command.run provider words connected ctx w).2.2 := by
  unfold Command.run
  cases Command.parse words connected with
  | error e => exact ⟨[], by simp, rfl⟩
  | ok c =>
      by_cases hc : c.Suits ctx
      · obtain ⟨as, r, h, ht, -⟩ := c.execute_trace provider hc w
        exact ⟨_, h.recorded, finishes_of_trace ht⟩
      · obtain ⟨message, he⟩ := c.execute_of_not_suits provider hc w
        exact ⟨[], by simp [he], rfl⟩

theorem ends_perform (w : World State) (d : Deed) :
    Ends w (sessionsEnded d) (perform w d) := by
  cases d with
  | connect url =>
      obtain ⟨answer, h⟩ := connect_acts provider url w
      exact ends_of_acts h (List.forall_mem_singleton.mpr rfl)
  | options s ds =>
      cases s with
      | borrowed => exact .refl w
      | owned =>
          obtain ⟨as, h, ht⟩ := applyDirectives_trace provider () ds w
          exact ends_of_acts h.acts fun a ha => (lasting_of_directives ht a ha).2
  | logging s sink level =>
      cases s with
      | borrowed => exact .refl w
      | owned =>
          obtain ⟨answer, h⟩ := setLogging_acts provider () sink level w
          exact ends_of_acts h (List.forall_mem_singleton.mpr rfl)
  | openFile s path => exact ends_of_act (a := .openFile () path _) rfl rfl
  | lock f kind => exact ends_of_open (ends_of_act (a := .lock f kind _) rfl rfl)
  | read f size => exact ends_of_open (ends_of_act (a := .read f size _) rfl rfl)
  | close f => exact ends_of_open (ends_of_act (a := .close f _) rfl rfl)
  | drop f => exact ⟨[], by simp [perform, World.recorded], rfl⟩
  | copy s path target chunk sink =>
      obtain ⟨as, h, ht⟩ := copy_trace provider () path target chunk { w with sink := sink }
      exact ends_of_turn (ends_of_acts h fun a ha => (lasting_of_copy ht a ha).2)
  | closeSession s => exact ends_closeSession w s
  | run words connected ctx sink => exact ends_of_turn (ends_run _ words connected ctx)

/-! ## All that is done to a volume -/

/-- Whatever is done to a volume, its counts say just what was done, after each single step of it. A
file that is open is counted as open, so that a close never takes the count below zero, and a copy
or a run of the command leaves that count as it was, though its close may be told to fail. -/
theorem performed_accounted (files : List (String × Contents)) (foreignLocks : List String)
    (rejectedKey : Option String) (failReadAfter : Option Nat) (failClose unreachable : Bool) :
    let w₀ : World State := { state := {
      files := files, foreignLocks := foreignLocks, rejectedKey := rejectedKey
      failReadAfter := failReadAfter, failClose := failClose, unreachable := unreachable } }
    (∀ deeds, Reaches w₀ (performed w₀ deeds)) ∧
    (∀ w, Reaches w₀ w →
      w.state.closeCount = w.recorded.countP Entry.isClose ∧
      w.state.openHandles + w.state.closeCount = w.recorded.countP Entry.isOpened ∧
      (∀ f h, w.state.handle? f = some h → 0 < w.state.openHandles) ∧
      w.state.locksTaken = w.recorded.filterMap Entry.lock? ∧
      w.state.readCalls = (w.recorded.filterMap Entry.asked?).length ∧
      w.state.mostAsked = (w.recorded.filterMap Entry.asked?).max?.getD 0 ∧
      w.state.finishCount = w.recorded.countP Entry.isFinish ∧
      ∀ d, ∃ entries, (perform w d).recorded = w.recorded ++ entries ∧
        (perform w d).state.finishCount = w.state.finishCount + sessionsEnded d entries) ∧
    (∀ w path target chunk, (Copy.copy provider () path target chunk w).2.state.openHandles =
      w.state.openHandles) ∧
    ∀ w words connected ctx, (Command.run provider words connected ctx w).2.2.state.openHandles =
      w.state.openHandles := by
  intro w₀
  have hstart : Accounted w₀ := ⟨rfl, Nat.le_refl _⟩
  refine ⟨fun deeds => reaches_performed w₀ deeds, fun w hw => ?_,
    fun w path target chunk => (Leads.copy w path target chunk).openHandles,
    fun w words connected ctx => (Leads.run w words connected ctx).openHandles⟩
  have h := hstart.reaches hw
  refine ⟨congrArg Tally.closed h.tally, congrArg Tally.opened h.tally, fun f x hx => ?_,
    congrArg Tally.locks h.tally, congrArg Tally.reads h.tally, congrArg Tally.most h.tally,
    congrArg Tally.finished h.tally, fun d => ?_⟩
  · exact Nat.lt_of_lt_of_le (State.live_pos hx) h.live
  · have h' := h.reaches (reaches_perform w d)
    obtain ⟨entries, hrecorded, hended⟩ := ends_perform w d
    refine ⟨entries, hrecorded, ?_⟩
    have hfinished : (perform w d).state.finishCount = _ := congrArg Tally.finished h'.tally
    have hbefore : w.state.finishCount = _ := congrArg Tally.finished h.tally
    rw [hfinished, hbefore, ← hended]
    simp only [Tally.of, hrecorded, List.countP_append]

/-- A file that was dropped without a close stays counted as open. -/
example : (performed { state := { files := [("/file", #[1])] } }
    [.openFile (.owned ()) "/file", .drop 0]).state.openHandles = 1 := rfl

end Memory

end LockedCat
