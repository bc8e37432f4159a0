import LockedCat.Proofs.Trace
import LockedCat.Script

/-!
# The outcome of a run

Several acts of one run can fail. Main statement: a close that failed decides how the run ends,
whatever else failed, and otherwise the first act that failed does. The end of a session and
interruptions decide nothing.
-/

namespace LockedCat

variable {σ V F α : Type}

/-! ## Blame -/

namespace Act

/-- What an act that failed is blamed for in the order of time. A write that takes nothing has
failed; a read or a write that was interrupted has not. -/
def blame? : Act V F → Option ErrorKind
  | connect _ (.error _) => some .connect
  | setOption _ _ (.error _) => some .config
  | setLogging _ _ _ (.error _) => some .config
  | openFile _ _ (.error _) => some (.copy .opening)
  | lock _ _ (.error _) => some (.copy .locking)
  | read _ _ (.error e) => if e.isInterrupted then none else some (.copy .transfer)
  | write _ (.ok 0) => some (.copy .transfer)
  | write _ (.error e) => if e.isInterrupted then none else some (.copy .transfer)
  | flush (some _) => some (.copy .transfer)
  | _ => none

def isFailedClose : Act V F → Bool
  | close _ (.error _) => true
  | _ => false

/-- The end of a session, and a read or a write that was interrupted. -/
def isForgiven : Act V F → Bool
  | finish .. => true
  | read _ _ (.error e) | write _ (.error e) => e.isInterrupted
  | _ => false

theorem blame?_ne_closing (a : Act V F) : a.blame? ≠ some (.copy .closing) := by
  unfold blame?
  split <;> try split
  all_goals simp

theorem blame?_of_isForgiven {a : Act V F} (h : a.isForgiven) :
    a.blame? = none ∧ a.isFailedClose = false := by
  unfold isForgiven at h
  split at h
  · exact ⟨rfl, rfl⟩
  · exact ⟨by simp [blame?, h], rfl⟩
  · exact ⟨by simp [blame?, h], rfl⟩
  · cases h

end Act

/-- What the result of a part of a run is blamed for. -/
def blamed : Except Error α → Option ErrorKind
  | .ok _ => none
  | .error e => some e.kind

theorem Outcome.ofResult_eq_success {r : Except Error Nat} :
    Outcome.ofResult r = .success ↔ ∃ n, r = .ok n := by
  cases r <;> simp [Outcome.ofResult]

theorem Outcome.ofResult_congr {r r' : Except Error Nat} (h : blamed r = blamed r') :
    Outcome.ofResult r = .ofResult r' := by
  cases r <;> cases r' <;> simp_all [blamed, Outcome.ofResult]

def transferBlamed {ε : Type} : Except ε α → Option ErrorKind
  | .ok _ => none
  | .error _ => some (.copy .transfer)

/-- How a run ends that did these acts. -/
def verdict (as : List (Act V F)) : Outcome :=
  if as.any Act.isFailedClose then .failure (.copy .closing)
  else
    match as.findSome? Act.blame? with
    | some kind => .failure kind
    | none => .success

/-- The result agrees with the acts: no file was closed in them, and the first failure among them
is the one that the result is blamed for. -/
def Faithful (as : List (Act V F)) (r : Option ErrorKind) : Prop :=
  as.any Act.isFailedClose = false ∧ as.findSome? Act.blame? = r

theorem Faithful.append {as bs : List (Act V F)} {r : Option ErrorKind} (ha : Faithful as none)
    (hb : Faithful bs r) : Faithful (as ++ bs) r := by
  simp [Faithful, ha.1, ha.2, hb.1, hb.2]

theorem Faithful.cons {a : Act V F} {as : List (Act V F)} {r : Option ErrorKind}
    (hc : a.isFailedClose = false) (hb : a.blame? = none) (h : Faithful as r) :
    Faithful (a :: as) r := by
  simp [Faithful, hc, hb, h.1, h.2]

theorem WriteTrace.faithful {bytes : List UInt8} {as : List (Act V F)} {r : Except IoError Unit}
    (h : WriteTrace bytes as r) :
    Faithful as (transferBlamed r) := by
  induction h with
  | done | refused => exact ⟨rfl, rfl⟩
  | part _ _ ih => exact ih.cons rfl rfl
  | again _ he _ ih => exact ih.cons rfl (by simp [Act.blame?, he])
  | failed _ he => simp [Faithful, Act.isFailedClose, Act.blame?, transferBlamed, he]

theorem TransferTrace.faithful {f : F} {size copied : Nat} {as : List (Act V F)}
    {r : Except Chain Nat} (h : TransferTrace f size copied as r) :
    Faithful as (transferBlamed r) := by
  induction h with
  | finished | unflushed => exact ⟨rfl, rfl⟩
  | chunk _ hw _ ih => exact (hw.faithful.append ih).cons rfl rfl
  | unwritten _ hw => exact hw.faithful.cons rfl rfl
  | again he _ ih => exact ih.cons rfl (by simp [Act.blame?, he])
  | failed he => simp [Faithful, Act.isFailedClose, Act.blame?, transferBlamed, he]

theorem LockTrace.faithful {f : F} {path target : String} {chunk : Nat} {as : List (Act V F)}
    {r : Except Error Nat} (h : LockTrace f path target chunk as r) : Faithful as (blamed r) := by
  cases h with
  | unlocked => exact ⟨rfl, rfl⟩
  | broken ht | copied ht => exact ht.faithful.cons rfl rfl

theorem DirectiveTrace.faithful {v : V} {ds : List Directive} {as : List (Act V F)}
    {r : Except Error Unit} (h : DirectiveTrace v ds as r) : Faithful as (blamed r) := by
  induction h with
  | done | rejected => exact ⟨rfl, rfl⟩
  | accepted _ ih => exact ih.cons rfl rfl

theorem Faithful.not_mem_close {as : List (Act V F)} {r : Option ErrorKind} (h : Faithful as r)
    (f : F) (e : IoError) : .close f (.error e) ∉ as := by
  intro hm
  have := List.any_eq_false.mp h.1 _ hm
  simp [Act.isFailedClose] at this

/-! ## Closes -/

/-- The acts account for the result, a close that failed before anything else. -/
structure Judged (as : List (Act V F)) (r : Except Error α) : Prop where
  closing : as.any Act.isFailedClose → blamed r = some (.copy .closing)
  first : as.any Act.isFailedClose = false → as.findSome? Act.blame? = blamed r
  opened : ∀ f e, .close f (.error e) ∈ as → ∃ v path, .openFile v path (.ok f) ∈ as

namespace Judged

variable {as bs : List (Act V F)} {r : Except Error α}

theorem of_faithful (h : Faithful as (blamed r)) : Judged as r where
  closing hc := by rw [h.1] at hc; cases hc
  first _ := h.2
  opened f e hm := absurd hm (h.not_mem_close f e)

theorem after (ha : Faithful as none) (h : Judged bs r) : Judged (as ++ bs) r where
  closing hc := h.closing (by simpa [ha.1] using hc)
  first hc := by
    simp only [List.any_append, ha.1, Bool.false_or] at hc
    simp [ha.2, h.first hc]
  opened f e hm := by
    rcases List.mem_append.mp hm with hm | hm
    · exact absurd hm (ha.not_mem_close f e)
    · obtain ⟨v, path, ho⟩ := h.opened f e hm
      exact ⟨v, path, List.mem_append_right as ho⟩

theorem forgive {a : Act V F} (ha : a.isForgiven) (h : Judged as r) : Judged (as ++ [a]) r where
  closing hc := h.closing (by simpa [(Act.blame?_of_isForgiven ha).2] using hc)
  first hc := by
    simp only [List.any_append, Bool.or_eq_false_iff] at hc
    simp [(Act.blame?_of_isForgiven ha).1, h.first hc.1]
  opened f e hm := by
    rcases List.mem_append.mp hm with hm | hm
    · obtain ⟨v, path, ho⟩ := h.opened f e hm
      exact ⟨v, path, List.mem_append_left [a] ho⟩
    · rw [← List.mem_singleton.mp hm] at ha
      cases ha

theorem verdict_eq {r : Except Error Nat} (h : Judged as r) : verdict as = .ofResult r := by
  unfold verdict
  split
  · rename_i hc
    cases r with
    | ok n => cases h.closing hc
    | error e => simpa [blamed, Outcome.ofResult] using (h.closing hc).symm
  · rename_i hc
    rw [h.first (by simpa using hc)]
    cases r <;> rfl

end Judged

theorem CopyTrace.judged {v : V} {path target : String} {chunk : Nat} {as : List (Act V F)}
    {r : Except Error Nat} (h : CopyTrace v path target chunk as r) : Judged as r := by
  cases h with
  | unopened => exact .of_faithful ⟨rfl, rfl⟩
  | @closed f as _ hl =>
      have hend : Faithful ([.close f (.ok ())] : List (Act V F)) none := ⟨rfl, rfl⟩
      refine .of_faithful (.cons rfl rfl ?_)
      simpa [Faithful, hend.1, hend.2, hl.faithful.1] using hl.faithful.2
  | @unclosed f as r e hl =>
      refine ⟨fun _ => rfl, fun hc => ?_, fun g e' hm => ?_⟩
      · simp [Act.isFailedClose] at hc
      · have hnot := hl.faithful.not_mem_close g e'
        have hg : g = f := by
          simp only [List.mem_cons, List.mem_append, hnot, List.not_mem_nil, reduceCtorEq,
            false_or, or_false, Act.close.injEq] at hm
          exact hm.1
        exact ⟨v, path, by simp [hg]⟩

theorem ConfiguredTrace.judged {v : V} {c : Command} {url : Locator} {debug : Bool} {chunk : Nat}
    {as : List (Act V F)} {r : Except Error Nat} (h : ConfiguredTrace v c url debug chunk as r) :
    Judged as r := by
  cases h with
  | rejected hd => exact .of_faithful hd.faithful
  | unlogged hd _ => exact .of_faithful (hd.faithful.append ⟨rfl, rfl⟩)
  | @logged as bs r hd _ hc =>
      have hl : Faithful ([.setLogging v Config.debugLog .debug (.ok ())] : List (Act V F)) none :=
        ⟨rfl, rfl⟩
      simpa using Judged.after hd.faithful (hc.judged.after hl)
  | quiet hd _ hc => exact hc.judged.after hd.faithful

theorem AloneTrace.judged {c : Command} {url : Locator} {debug : Bool} {chunk : Nat}
    {as : List (Act V F)} {r : Except Error Nat} (h : AloneTrace c url debug chunk as r) :
    Judged as r := by
  cases h with
  | unconnected => exact .of_faithful ⟨rfl, rfl⟩
  | @connected v as r x hc =>
      have hl : Faithful ([.connect url (.ok v)] : List (Act V F)) none := ⟨rfl, rfl⟩
      have hend : (Act.finish v x : Act V F).isForgiven := rfl
      exact (hc.judged.forgive hend).after hl

theorem Command.Trace.judged {c : Command} {ctx : Context V} {as : List (Act V F)}
    {r : Except Error Nat} (h : c.Trace ctx as r) : Judged as r := by
  cases h with
  | alone _ _ h => exact h.judged
  | within _ _ h => exact h.judged

/-! ## The end of a session -/

/-- A provider that ends its sessions in another way. -/
def Provider.endingWith (p : Provider σ V F) (finish : V → σ → Reply σ Chain Unit) :
    Provider σ V F :=
  { p with finish := finish }

section EndingWith

variable (p : Provider σ V F) (finish : V → σ → Reply σ Chain Unit)

theorem transfer_endingWith (f : F) (chunk : { n : Nat // 0 < n }) (copied : Nat) (w : World σ) :
    Copy.transfer (p.endingWith finish) f chunk copied w = Copy.transfer p f chunk copied w := by
  have hread : ∀ w : World σ, w.read (p.endingWith finish) f chunk = w.read p f chunk :=
    fun _ => rfl
  fun_induction Copy.transfer p f chunk copied w with
  | case1 copied w w₁ h e w₂ h₂ => rw [Copy.transfer_eq]; simp only [hread, h, h₂]
  | case2 copied w w₁ h w₂ h₂ => rw [Copy.transfer_eq]; simp only [hread, h, h₂]
  | case3 copied w b bytes w₁ h e w₂ h₂ => rw [Copy.transfer_eq]; simp only [hread, h, h₂]
  | case4 copied w b bytes w₁ h w₂ h₂ ih => rw [Copy.transfer_eq]; simp only [hread, h, h₂, ih]
  | case5 copied w e w₁ h he ih =>
      rw [Copy.transfer_eq]; simp only [hread, h, he, ih, if_true]
  | case6 copied w e w₁ h he =>
      rw [Copy.transfer_eq]; simp only [hread, h, he, Bool.false_eq_true, if_false]

theorem lockAndTransfer_endingWith (f : F) (path target : String) (chunk : Nat) (w : World σ) :
    Copy.lockAndTransfer (p.endingWith finish) f path target chunk w =
      Copy.lockAndTransfer p f path target chunk w := by
  simp only [Copy.lockAndTransfer, transfer_endingWith]
  rfl

theorem copy_endingWith (v : V) (path target : String) (chunk : Nat) (w : World σ) :
    Copy.copy (p.endingWith finish) v path target chunk w =
      Copy.copy p v path target chunk w := by
  simp only [Copy.copy, lockAndTransfer_endingWith]
  rfl

theorem applyDirectives_endingWith (v : V) (ds : List Directive) (w : World σ) :
    Session.applyDirectives (p.endingWith finish) v ds w = Session.applyDirectives p v ds w := by
  induction ds generalizing w with
  | nil => rfl
  | cons d rest ih =>
      simp only [Session.applyDirectives, ih]
      rfl

theorem configureAndCopy_endingWith (s : Session V) (c : Command) (url : Locator) (debug : Bool)
    (chunk : Nat) (w : World σ) :
    Command.configureAndCopy (p.endingWith finish) s c url debug chunk w =
      Command.configureAndCopy p s c url debug chunk w := by
  simp only [Command.configureAndCopy, applyDirectives_endingWith, copy_endingWith]
  rfl

/-- A session is ended after the result is there. -/
theorem carryOut_endingWith (c : Command) (ctx : Context V) (w : World σ) :
    (c.carryOut (p.endingWith finish) ctx w).1 = (c.carryOut p ctx w).1 := by
  have hconnect (url : Locator) (w : World σ) :
      Session.connect (p.endingWith finish) url w = Session.connect p url w := rfl
  unfold Command.carryOut
  split
  · simp only [Command.copyWithin, copy_endingWith]
  · simp only [Command.copyAlone, hconnect, configureAndCopy_endingWith]
    split <;> rfl
  · rfl
  · rfl

theorem execute_endingWith (c : Command) (ctx : Context V) (w : World σ) :
    (c.execute (p.endingWith finish) ctx w).1 = (c.execute p ctx w).1 := by
  have h := carryOut_endingWith p finish c ctx w
  unfold Command.execute
  split <;> split <;> simp_all

end EndingWith

/-! ## Runs -/

theorem isFailedClose_iff {a : Act V F} : a.isFailedClose ↔ ∃ f e, a = .close f (.error e) := by
  unfold Act.isFailedClose
  split
  · simp
  · rename_i hne
    simp only [Bool.false_eq_true, false_iff, not_exists]
    intro f e ha
    exact hne f e ha

theorem verdict_eq_closing_iff {as : List (Act V F)} :
    verdict as = .failure (.copy .closing) ↔ as.any Act.isFailedClose := by
  unfold verdict
  constructor
  · intro h
    by_cases hc : as.any Act.isFailedClose
    · exact hc
    · rw [if_neg hc] at h
      cases hf : as.findSome? Act.blame? with
      | none => simp [hf] at h
      | some kind =>
          obtain ⟨a, -, ha⟩ := List.exists_of_findSome?_eq_some hf
          rw [hf] at h
          cases h
          exact absurd ha a.blame?_ne_closing
  · intro h
    rw [if_pos h]

theorem verdict_eq_success_iff {as : List (Act V F)} :
    verdict as = .success ↔
      as.any Act.isFailedClose = false ∧ ∀ a ∈ as, a.blame? = none := by
  unfold verdict
  by_cases hc : as.any Act.isFailedClose
  · simp [hc]
  · rw [if_neg hc, ← List.findSome?_eq_none_iff]
    cases as.findSome? Act.blame? <;> simp [hc]

/-- Acts that are forgiven could as well not have happened. -/
theorem verdict_filter (as : List (Act V F)) :
    verdict (as.filter (!·.isForgiven)) = verdict as := by
  have hclose : (as.filter (!·.isForgiven)).any Act.isFailedClose = as.any Act.isFailedClose := by
    induction as with
    | nil => rfl
    | cons a rest ih =>
        by_cases ha : a.isForgiven
        · simp [ha, (Act.blame?_of_isForgiven ha).2, ih]
        · simp [ha, ih]
  have hblame : (as.filter (!·.isForgiven)).findSome? Act.blame? = as.findSome? Act.blame? := by
    clear hclose
    induction as with
    | nil => rfl
    | cons a rest ih =>
        by_cases ha : a.isForgiven
        · simp [ha, (Act.blame?_of_isForgiven ha).1, ih]
        · simp [ha, List.findSome?_cons, ih]
  unfold verdict
  rw [hclose, hblame]

theorem Outcome.exitCode_eq_zero_iff (o : Outcome) :
    o.exitCode = 0 ↔ o = .success ∨ o = .usageHandled := by
  cases o <;> simp [Outcome.exitCode]

/-- The acts of a run say how it ends. -/
theorem Command.execute_verdict (p : Provider σ V F) {c : Command} {ctx : Context V}
    (h : c.Suits ctx) (w : World σ) :
    ∃ as, Acts p w as (c.execute p ctx w).2 ∧
      (c.execute p ctx w).2.recorded = w.recorded ++ as.map Act.entry ∧
      ((c.execute p ctx w).1 = .failure (.copy .closing) ↔
        ∃ v path f e, .openFile v path (.ok f) ∈ as ∧ .close f (.error e) ∈ as) ∧
      ((∀ f e, .close f (.error e) ∉ as) →
        (c.execute p ctx w).1 = match as.findSome? Act.blame? with
          | some kind => .failure kind
          | none => .success) ∧
      ((c.execute p ctx w).1 = .success ↔
        (∀ f e, .close f (.error e) ∉ as) ∧ ∀ a ∈ as, a.blame? = none) ∧
      (c.execute p ctx w).1 = verdict (as.filter (!·.isForgiven)) ∧
      (∀ finish, (c.execute (p.endingWith finish) ctx w).1 = (c.execute p ctx w).1) ∧
      ∀ o : Outcome, o.exitCode = 0 ↔ o = .success ∨ o = .usageHandled := by
  obtain ⟨as, r, hacts, htrace, hr⟩ := execute_trace p h w
  have hjudged := htrace.judged
  have hv : (c.execute p ctx w).1 = verdict as := by rw [hr, hjudged.verdict_eq]
  have hclosed : as.any Act.isFailedClose ↔ ∃ f e, .close f (.error e) ∈ as := by
    rw [List.any_eq_true]
    constructor
    · rintro ⟨a, ha, hc⟩
      obtain ⟨f, e, rfl⟩ := isFailedClose_iff.mp hc
      exact ⟨f, e, ha⟩
    · rintro ⟨f, e, ha⟩
      exact ⟨_, ha, rfl⟩
  have hopen : as.any Act.isFailedClose = false ↔ ∀ f e, .close f (.error e) ∉ as := by
    rw [← Bool.not_eq_true, hclosed]
    simp
  refine ⟨as, hacts, hacts.recorded, ?_, ?_, ?_, ?_, ?_, Outcome.exitCode_eq_zero_iff⟩
  · rw [hv, verdict_eq_closing_iff, hclosed]
    constructor
    · rintro ⟨f, e, hm⟩
      obtain ⟨v, path, ho⟩ := hjudged.opened f e hm
      exact ⟨v, path, f, e, ho, hm⟩
    · rintro ⟨v, path, f, e, -, hm⟩
      exact ⟨f, e, hm⟩
  · intro hno
    rw [hv, verdict, hopen.mpr hno]
    rfl
  · rw [hv, verdict_eq_success_iff, hopen]
  · rw [hv, verdict_filter]
  · intro finish
    exact execute_endingWith p finish c ctx w

/-- Locking the file, closing it and ending the session all fail: the command fails with the close,
however the session ends. -/
theorem Command.execute_verdict_unclosed :
    let p := Script.provider
    let c : Command := ⟨.locator ⟨"h", "v", "/f", 24007⟩, [], false, "glfs://h/v/f"⟩
    let ctx : Context Unit := {}
    let w : World Script.State := { state := { script := {
      lockFailure := some (.simple .wouldBlock)
      closeFailure := some (.simple .timedOut)
      finishFailure := some { root := "busy" } } } }
    c.Suits ctx ∧ (c.execute p ctx w).1 = .failure (.copy .closing) ∧
      (∃ as, Acts p w as (c.execute p ctx w).2 ∧
        as.map Act.entry = [.call (.connect ⟨"h", "v", "/f", 24007⟩) none,
          .call (.openFile "/f") none,
          .call (.lock .write) (some { root := "operation would block" }),
          .call .close (some { root := "timed out" }), .call .finish (some { root := "busy" })] ∧
        ∃ v path f e, .openFile v path (.ok f) ∈ as ∧ .close f (.error e) ∈ as) ∧
      ∀ finish, (c.execute (p.endingWith finish) ctx w).1 = .failure (.copy .closing) := by
  intro p c ctx w
  have hsuits : c.Suits ctx := trivial
  have hend : (c.execute p ctx w).1 = .failure (.copy .closing) := rfl
  obtain ⟨as, hacts, hrecorded, hclosing, -, -, -, hfinish, -⟩ := execute_verdict p hsuits w
  exact ⟨hsuits, hend, ⟨as, hacts, hrecorded.symm, hclosing.mp hend⟩,
    fun finish => (hfinish finish).trans hend⟩

end LockedCat
