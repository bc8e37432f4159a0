import LockedCat.Proofs.Commands
import LockedCat.Proofs.Trace
import LockedCat.Script

/-!
# The protocol of a session

The calls that a command with a locator makes of its provider, whatever fails. Main statement:
they are one protocol, cut short at the first failure, and what was opened or connected is given
back on every way out.
-/

namespace LockedCat

variable {σ V F : Type}

/-! ## The protocol -/

/-- The calls of a copy: a file that was opened is read only once it was locked, and it is closed
in any case. -/
inductive CopyCalls (v : V) (path : String) : List (Act V F) → Prop where
  | unopened (e) : CopyCalls v path [.openFile v path (.error e)]
  | unlocked (f e x) :
      CopyCalls v path [.openFile v path (.ok f), .lock f .write (.error e), .close f x]
  | locked (f reads x) : (∀ a ∈ reads, ∃ size r, a = .read f size r) →
      CopyCalls v path
        (.openFile v path (.ok f) :: .lock f .write (.ok ()) :: (reads ++ [.close f x]))

def Act.accepted (v : V) (d : Directive) : Act V F := .setOption v d (.ok ())

/-- The calls of a session that is made for one copy: a session that was connected is configured
before it is used, and it is ended in any case. -/
inductive SessionCalls (url : Locator) (directives : List Directive) (debug : Bool) :
    List (Act V F) → Prop where
  | unconnected (x) : SessionCalls url directives debug [.connect url (.error x)]
  | rejected (v before d after x y) : directives = before ++ d :: after →
      SessionCalls url directives debug
        (.connect url (.ok v) ::
          (before.map (.accepted v) ++ [.setOption v d (.error x), .finish v y]))
  | unlogged (v x y) : debug →
      SessionCalls url directives debug
        (.connect url (.ok v) :: (directives.map (.accepted v) ++
          [.setLogging v Config.debugLog .debug (.error x), .finish v y]))
  | logged (v calls y) : debug → CopyCalls v url.path calls →
      SessionCalls url directives debug
        (.connect url (.ok v) :: (directives.map (.accepted v) ++
          .setLogging v Config.debugLog .debug (.ok ()) :: (calls ++ [.finish v y])))
  | quiet (v calls y) : debug = false → CopyCalls v url.path calls →
      SessionCalls url directives debug
        (.connect url (.ok v) :: (directives.map (.accepted v) ++ (calls ++ [.finish v y])))

theorem WriteTrace.calls {bytes : List UInt8} {as : List (Act V F)} {r : Except IoError Unit}
    (h : WriteTrace bytes as r) : as.filter Act.isCall = [] := by
  induction h with
  | done => rfl
  | refused | failed => rfl
  | part _ _ ih | again _ _ _ ih => simpa [Act.isCall] using ih

theorem TransferTrace.calls {f : F} {size copied : Nat} {as : List (Act V F)}
    {r : Except Chain Nat} (h : TransferTrace f size copied as r) :
    ∀ a ∈ as.filter Act.isCall, ∃ size r, a = .read f size r := by
  induction h with
  | finished | unflushed | failed => simp [Act.isCall]
  | chunk _ hw _ ih =>
      intro a ha
      rw [List.filter_cons_of_pos rfl, List.filter_append, hw.calls, List.nil_append] at ha
      rcases List.mem_cons.mp ha with rfl | ha
      · exact ⟨_, _, rfl⟩
      · exact ih a ha
  | unwritten _ hw =>
      intro a ha
      rw [List.filter_cons_of_pos rfl, hw.calls, List.mem_singleton] at ha
      exact ⟨_, _, ha⟩
  | again _ _ ih =>
      intro a ha
      rw [List.filter_cons_of_pos rfl] at ha
      rcases List.mem_cons.mp ha with rfl | ha
      · exact ⟨_, _, rfl⟩
      · exact ih a ha

theorem CopyTrace.calls {v : V} {path target : String} {chunk : Nat} {as : List (Act V F)}
    {r : Except Error Nat} (h : CopyTrace v path target chunk as r) :
    CopyCalls v path (as.filter Act.isCall) := by
  have hlock : ∀ f as r x, LockTrace f path target chunk as r →
      CopyCalls v path
        ((.openFile v path (.ok f) :: (as ++ [.close f x]) : List (Act V F)).filter
          Act.isCall) := by
    intro f as r x hl
    cases hl with
    | unlocked => exact .unlocked f _ x
    | broken ht | copied ht =>
        simpa [List.filter_cons, Act.isCall] using CopyCalls.locked f _ x ht.calls
  cases h with
  | unopened => exact .unopened _
  | closed hl | unclosed hl => exact hlock _ _ _ _ hl

namespace DirectiveTrace

variable {v : V} {ds : List Directive} {as : List (Act V F)} {r : Except Error Unit}

theorem calls (h : DirectiveTrace v ds as r) : as.filter Act.isCall = as := by
  induction h with
  | done | rejected => rfl
  | accepted _ ih => rw [List.filter_cons_of_pos rfl, ih]

theorem eq_map_accepted (h : DirectiveTrace v ds as r) (hr : r = .ok ()) :
    as = ds.map (.accepted v) := by
  induction h with
  | done => rfl
  | accepted _ ih => rw [ih hr]; rfl
  | rejected => cases hr

theorem exists_rejected {e : Error} (h : DirectiveTrace v ds as r) (hr : r = .error e) :
    ∃ before d after x, ds = before ++ d :: after ∧
      as = before.map (.accepted v) ++ [.setOption v d (.error x)] := by
  induction h with
  | done => cases hr
  | @accepted d rest as r _ ih =>
      obtain ⟨before, d', after, x, rfl, rfl⟩ := ih hr
      exact ⟨d :: before, d', after, x, rfl, rfl⟩
  | rejected => exact ⟨[], _, _, _, rfl, rfl⟩

end DirectiveTrace

theorem AloneTrace.calls {c : Command} {url : Locator} {debug : Bool} {chunk : Nat}
    {as : List (Act V F)} {r : Except Error Nat} (h : AloneTrace c url debug chunk as r) :
    SessionCalls url c.directives debug (as.filter Act.isCall) := by
  cases h with
  | unconnected => exact .unconnected _
  | @connected v as r x hc =>
      have hf : ((.connect url (.ok v) :: (as ++ [.finish v x]) : List (Act V F)).filter Act.isCall)
          = .connect url (.ok v) :: (as.filter Act.isCall ++ [.finish v x]) := by
        simp [List.filter_cons, Act.isCall]
      rw [hf]
      cases hc with
      | rejected hd =>
          obtain ⟨before, d, after, e, hds, rfl⟩ := hd.exists_rejected rfl
          rw [hd.calls]
          simpa using SessionCalls.rejected v before d after e x hds
      | @unlogged bs e hd hdebug =>
          rw [List.filter_append, hd.calls, hd.eq_map_accepted rfl]
          simpa [List.filter_cons, Act.isCall] using SessionCalls.unlogged v e x hdebug
      | @logged bs cs _ hd hdebug hcopy =>
          rw [List.filter_append, hd.calls, hd.eq_map_accepted rfl]
          simpa [List.filter_cons, Act.isCall] using SessionCalls.logged v _ x hdebug hcopy.calls
      | @quiet bs cs _ hd hdebug hcopy =>
          rw [List.filter_append, hd.calls, hd.eq_map_accepted rfl]
          simpa using SessionCalls.quiet v _ x hdebug hcopy.calls

/-! ## Order -/

namespace Act

/-- The place of a call in the protocol. -/
def rank : Act V F → Nat
  | connect .. => 0
  | setOption .. => 1
  | setLogging .. => 2
  | openFile .. => 3
  | lock .. => 4
  | read .. | write .. | flush .. => 5
  | close .. => 6
  | finish .. => 7

/-- A call that the protocol has room for more than once. -/
def isRepeatable : Act V F → Bool
  | setOption .. | read .. => true
  | _ => false

/-- A call that configures a session. -/
def configures : Act V F → Bool
  | setOption .. | setLogging .. => true
  | _ => false

/-- The protocol has room for the second call after the first. -/
def Before (a b : Act V F) : Prop := a.rank < b.rank ∨ a.rank = b.rank ∧ a.isRepeatable

theorem rank_le (a : Act V F) : a.rank ≤ 7 := by
  cases a <;> simp [rank]

theorem rank_of_configures {a : Act V F} (h : a.configures) : 1 ≤ a.rank ∧ a.rank ≤ 2 := by
  cases a <;> simp_all [configures, rank]

theorem pairwise_before_of_repeatable {n : Nat} {as : List (Act V F)}
    (h : ∀ a ∈ as, a.rank = n ∧ a.isRepeatable) : as.Pairwise Before := by
  induction as with
  | nil => exact .nil
  | cons a as ih =>
      refine List.pairwise_cons.mpr ⟨?_, ih fun b hb => h b (List.mem_cons_of_mem a hb)⟩
      intro b hb
      obtain ⟨ha, hrep⟩ := h a List.mem_cons_self
      exact .inr ⟨ha.trans (h b (List.mem_cons_of_mem a hb)).1.symm, hrep⟩

end Act

namespace CopyCalls

variable {v : V} {path : String} {calls : List (Act V F)}

theorem rank_mem (h : CopyCalls v path calls) : ∀ a ∈ calls, 3 ≤ a.rank ∧ a.rank ≤ 6 := by
  cases h with
  | unopened | unlocked => simp [Act.rank]
  | locked f reads x hr =>
      have hreads : ∀ a ∈ reads, 3 ≤ a.rank ∧ a.rank ≤ 6 := by
        intro a ha
        obtain ⟨size, r, rfl⟩ := hr a ha
        simp [Act.rank]
      intro a ha
      simp only [List.mem_cons, List.mem_append, List.not_mem_nil, or_false] at ha
      rcases ha with rfl | rfl | ha | rfl
      · simp [Act.rank]
      · simp [Act.rank]
      · exact hreads a ha
      · simp [Act.rank]

theorem pairwise (h : CopyCalls v path calls) : calls.Pairwise Act.Before := by
  cases h with
  | unopened | unlocked => simp [Act.Before, Act.rank]
  | locked f reads x hr =>
      have hrank : ∀ a ∈ reads, a.rank = 5 ∧ a.isRepeatable := by
        intro a ha
        obtain ⟨size, r, rfl⟩ := hr a ha
        exact ⟨rfl, rfl⟩
      have htail : ∀ a ∈ reads ++ [.close f x], 5 ≤ a.rank := by
        intro a ha
        rcases List.mem_append.mp ha with ha | ha
        · exact Nat.le_of_eq (hrank a ha).1.symm
        · rw [List.mem_singleton.mp ha]
          simp [Act.rank]
      refine .cons ?_ (.cons ?_ (List.pairwise_append.mpr ⟨?_, List.pairwise_singleton _ _, ?_⟩))
      · intro a ha
        rcases List.mem_cons.mp ha with rfl | ha
        · simp [Act.Before, Act.rank]
        · exact .inl (Nat.lt_of_lt_of_le (by simp [Act.rank]) (htail a ha))
      · intro a ha
        exact .inl (Nat.lt_of_lt_of_le (by simp [Act.rank]) (htail a ha))
      · exact Act.pairwise_before_of_repeatable hrank
      · intro a ha b hb
        rw [List.mem_singleton.mp hb]
        exact .inl (by rw [(hrank a ha).1]; simp [Act.rank])

theorem locked_of_read (h : CopyCalls v path calls) {f : F} {size : Nat}
    {r : Except IoError (List UInt8)} (hr : .read f size r ∈ calls) :
    .lock f .write (.ok ()) ∈ calls := by
  cases h with
  | unopened | unlocked => simp at hr
  | locked g reads x hreads =>
      have hm : .read f size r ∈ reads := by simpa using hr
      obtain ⟨_, _, he⟩ := hreads _ hm
      cases he
      simp

theorem closed_of_opened (h : CopyCalls v path calls) {u : V} {name : String} {f : F}
    (ho : .openFile u name (.ok f) ∈ calls) : ∃ x, .close f x ∈ calls := by
  cases h with
  | unopened => simp at ho
  | unlocked g e x =>
      have hg : f = g := by simp at ho; exact ho.2.2
      exact ⟨x, by simp [hg]⟩
  | locked g reads x hreads =>
      have hm : .openFile u name (.ok f) ∉ reads := by
        intro hm
        obtain ⟨_, _, he⟩ := hreads _ hm
        cases he
      have hg : f = g := by simp [hm] at ho; exact ho.2.2
      exact ⟨x, by simp [hg]⟩

end CopyCalls

/-- Calls in an order that gives everything back: nothing is read unlocked, nothing is configured
late, and what was opened or connected does not stay open. -/
structure Orderly (calls : List (Act V F)) : Prop where
  locked : ∀ before f size r after, calls = before ++ .read f size r :: after →
    .lock f .write (.ok ()) ∈ before
  settled : ∀ before v path r after, calls = before ++ .openFile v path r :: after →
    ∀ a ∈ after, ¬ a.configures
  last : ∀ before v r after, calls = before ++ .finish v r :: after → after = []
  closed : ∀ before v path f after, calls = before ++ .openFile v path (.ok f) :: after →
    ∃ r, .close f r ∈ after
  finished : ∀ before url v after, calls = before ++ .connect url (.ok v) :: after →
    ∃ r, .finish v r ∈ after

section Split

variable {calls before after : List (Act V F)} {a b : Act V F}

theorem before_of_mem_after (h : calls.Pairwise Act.Before) (he : calls = before ++ b :: after)
    (ha : a ∈ after) : b.Before a := by
  rw [he] at h
  exact (List.pairwise_cons.mp (List.pairwise_append.mp h).2.1).1 a ha

theorem mem_before_of_rank_lt (h : calls.Pairwise Act.Before) (he : calls = before ++ b :: after)
    (ha : a ∈ calls) (hlt : a.rank < b.rank) : a ∈ before := by
  have hm := ha
  rw [he] at hm
  rcases List.mem_append.mp hm with hm | hm
  · exact hm
  · rcases List.mem_cons.mp hm with rfl | hm
    · omega
    · rcases before_of_mem_after h he hm with hb | ⟨hb, -⟩ <;> omega

theorem mem_after_of_rank_lt (h : calls.Pairwise Act.Before) (he : calls = before ++ b :: after)
    (ha : a ∈ calls) (hlt : b.rank < a.rank) : a ∈ after := by
  have hm := ha
  rw [he] at h hm
  rcases List.mem_append.mp hm with hm | hm
  · rcases (List.pairwise_append.mp h).2.2 a hm b List.mem_cons_self with hb | ⟨hb, -⟩ <;> omega
  · rcases List.mem_cons.mp hm with rfl | hm
    · omega
    · exact hm

end Split

namespace SessionCalls

variable {url : Locator} {ds : List Directive} {debug : Bool} {calls : List (Act V F)}

theorem pairwise_map_accepted (v : V) (ds : List Directive) :
    (ds.map (Act.accepted v) : List (Act V F)).Pairwise Act.Before := by
  apply Act.pairwise_before_of_repeatable
  intro a ha
  obtain ⟨d, -, rfl⟩ := List.mem_map.mp ha
  exact ⟨rfl, rfl⟩

theorem configures_of_mem_map_accepted {v : V} {ds : List Directive} {a : Act V F}
    (h : a ∈ ds.map (Act.accepted v)) : a.configures := by
  obtain ⟨d, -, rfl⟩ := List.mem_map.mp h
  rfl

/-- Directives that were taken may be followed by one more call that configures. -/
theorem config_concat (v : V) (ds : List Directive) {a : Act V F}
    (hb : ∀ d, (Act.accepted v d).Before a) (ha : a.configures) :
    (ds.map (Act.accepted v) ++ [a]).Pairwise Act.Before ∧
      ∀ b ∈ ds.map (Act.accepted v) ++ [a], b.configures := by
  constructor
  · refine List.pairwise_append.mpr ⟨pairwise_map_accepted v ds, List.pairwise_singleton _ _, ?_⟩
    intro b hm a' ha'
    obtain ⟨d, -, rfl⟩ := List.mem_map.mp hm
    rw [List.mem_singleton.mp ha']
    exact hb d
  · intro b hm
    rcases List.mem_append.mp hm with hm | hm
    · exact configures_of_mem_map_accepted hm
    · rw [List.mem_singleton.mp hm]
      exact ha

/-- A session is first configured, then used for a copy if that went well, and then ended. -/
theorem phases (h : SessionCalls url ds debug calls) :
    (∃ x, calls = [.connect url (.error x)]) ∨
    ∃ v config copy y, calls = .connect url (.ok v) :: (config ++ (copy ++ [.finish v y])) ∧
      config.Pairwise Act.Before ∧ (∀ a ∈ config, a.configures) ∧
      (copy = [] ∨ CopyCalls v url.path copy) := by
  cases h with
  | unconnected x => exact .inl ⟨x, rfl⟩
  | rejected v before d after x y hds =>
      obtain ⟨hp, hc⟩ := config_concat v (a := .setOption v d (.error x)) before
        (fun _ => .inr ⟨rfl, rfl⟩) rfl
      exact .inr ⟨v, _, [], y, by simp, hp, hc, .inl rfl⟩
  | unlogged v x y =>
      obtain ⟨hp, hc⟩ := config_concat v (a := .setLogging v Config.debugLog .debug (.error x)) ds
        (fun _ => .inl (Nat.lt_succ_self 1)) rfl
      exact .inr ⟨v, _, [], y, by simp, hp, hc, .inl rfl⟩
  | logged v calls y _ hcopy =>
      obtain ⟨hp, hc⟩ := config_concat v (a := .setLogging v Config.debugLog .debug (.ok ())) ds
        (fun _ => .inl (Nat.lt_succ_self 1)) rfl
      exact .inr ⟨v, _, calls, y, by simp, hp, hc, .inr hcopy⟩
  | quiet v calls y _ hcopy =>
      exact .inr ⟨v, _, calls, y, rfl, pairwise_map_accepted v ds,
        fun a => configures_of_mem_map_accepted, .inr hcopy⟩

theorem pairwise (h : SessionCalls url ds debug calls) : calls.Pairwise Act.Before := by
  rcases h.phases with ⟨x, rfl⟩ | ⟨v, config, copy, y, rfl, hp, hc, hcopy⟩
  · exact List.pairwise_singleton _ _
  · have hrank : ∀ a ∈ config, 1 ≤ a.rank ∧ a.rank ≤ 2 :=
      fun a ha => Act.rank_of_configures (hc a ha)
    have hcopyRank : ∀ a ∈ copy, 3 ≤ a.rank ∧ a.rank ≤ 6 := by
      rcases hcopy with rfl | hcopy
      · simp
      · exact hcopy.rank_mem
    have hcopyPair : copy.Pairwise Act.Before := by
      rcases hcopy with rfl | hcopy
      · exact .nil
      · exact hcopy.pairwise
    have hend : (Act.finish v y : Act V F).rank = 7 := rfl
    have hstart : (Act.connect url (.ok v) : Act V F).rank = 0 := rfl
    refine .cons ?_ (List.pairwise_append.mpr ⟨hp,
      List.pairwise_append.mpr ⟨hcopyPair, List.pairwise_singleton _ _, ?_⟩, ?_⟩)
    · intro a ha
      simp only [List.mem_append, List.mem_singleton] at ha
      left
      rcases ha with ha | ha | rfl
      · have := hrank a ha; omega
      · have := hcopyRank a ha; omega
      · omega
    · intro a ha b hb
      rw [List.mem_singleton.mp hb]
      have := hcopyRank a ha
      left; omega
    · intro a ha b hb
      have := hrank a ha
      left
      rcases List.mem_append.mp hb with hb | hb
      · have := hcopyRank b hb; omega
      · rw [List.mem_singleton.mp hb]; omega

/-- What lies between the configuration and the end of a session belongs to one copy. -/
theorem exists_copy (h : SessionCalls url ds debug calls) {a : Act V F} (ha : a ∈ calls)
    (hlow : 3 ≤ a.rank) (hhigh : a.rank ≤ 6) :
    ∃ v copy, CopyCalls v url.path copy ∧ a ∈ copy ∧ ∀ b ∈ copy, b ∈ calls := by
  rcases h.phases with ⟨x, rfl⟩ | ⟨v, config, copy, y, rfl, -, hc, hcopy⟩
  · rw [List.mem_singleton.mp ha] at hlow
    simp [Act.rank] at hlow
  · have hm : a ∈ copy := by
      simp only [List.mem_cons, List.mem_append, List.not_mem_nil, or_false] at ha
      rcases ha with rfl | ha | ha | rfl
      · simp [Act.rank] at hlow
      · have := Act.rank_of_configures (hc a ha)
        omega
      · exact ha
      · simp [Act.rank] at hhigh
    rcases hcopy with rfl | hcopy
    · simp at hm
    · exact ⟨v, copy, hcopy, hm, fun b hb => by simp [hb]⟩

theorem finished_of_connected (h : SessionCalls url ds debug calls) {u : Locator} {v : V}
    (hv : .connect u (.ok v) ∈ calls) : ∃ y, .finish v y ∈ calls := by
  rcases h.phases with ⟨x, rfl⟩ | ⟨v', config, copy, y, rfl, -, hc, hcopy⟩
  · simp at hv
  · have hconfig : .connect u (.ok v) ∉ config := by
      intro hm
      exact absurd (hc _ hm) (by simp [Act.configures])
    have hnot : .connect u (.ok v) ∉ copy := by
      intro hm
      rcases hcopy with rfl | hcopy
      · simp at hm
      · exact absurd (hcopy.rank_mem _ hm).1 (by simp [Act.rank])
    have he : v = v' := by
      simp only [List.mem_cons, List.mem_append, hconfig, hnot, List.not_mem_nil, reduceCtorEq,
        or_false, Act.connect.injEq, Except.ok.injEq] at hv
      exact hv.2
    exact ⟨y, by simp [he]⟩

/-- The only log that a session is given is the standard error stream. -/
theorem sink_of_setLogging (h : SessionCalls url ds debug calls) {v : V} {sink : String}
    {level : Level} {r : Except Chain Unit} (hl : .setLogging v sink level r ∈ calls) :
    sink = Config.debugLog := by
  have hcopy {u : V} {copy : List (Act V F)} (hc : CopyCalls u url.path copy) :
      .setLogging v sink level r ∉ copy :=
    fun hm => absurd (hc.rank_mem _ hm).1 (by simp [Act.rank])
  cases h with
  | unconnected | rejected => simp [Act.accepted] at hl
  | unlogged =>
      simp only [List.mem_cons, List.mem_append, List.mem_map, Act.accepted, reduceCtorEq,
        and_false, exists_false, List.not_mem_nil, or_false, false_or, Act.setLogging.injEq] at hl
      exact hl.2.1
  | logged u copy y _ hc =>
      simp only [List.mem_cons, List.mem_append, List.mem_map, Act.accepted, reduceCtorEq,
        and_false, exists_false, List.not_mem_nil, or_false, false_or, Act.setLogging.injEq,
        hcopy hc] at hl
      exact hl.2.1
  | quiet u copy y _ hc => simp [Act.accepted, hcopy hc] at hl

theorem orderly (h : SessionCalls url ds debug calls) : Orderly calls where
  locked before f size r after he := by
    obtain ⟨v, copy, hcopy, hm, hsub⟩ := h.exists_copy (a := .read f size r) (by simp [he])
      (by simp [Act.rank]) (by simp [Act.rank])
    exact mem_before_of_rank_lt h.pairwise he (hsub _ (hcopy.locked_of_read hm))
      (by simp [Act.rank])
  settled before v path r after he a ha hconf := by
    have hrank := Act.rank_of_configures hconf
    have hopen : (Act.openFile v path r : Act V F).rank = 3 := rfl
    rcases before_of_mem_after h.pairwise he ha with hb | ⟨hb, -⟩ <;> omega
  last before v r after he := by
    cases after with
    | nil => rfl
    | cons a after =>
        have hend : (Act.finish v r : Act V F).rank = 7 := rfl
        have hrank := a.rank_le
        rcases before_of_mem_after h.pairwise he List.mem_cons_self with hb | ⟨-, hb⟩
        · omega
        · simp [Act.isRepeatable] at hb
  closed before v path f after he := by
    obtain ⟨u, copy, hcopy, hm, hsub⟩ := h.exists_copy (a := .openFile v path (.ok f))
      (by simp [he]) (by simp [Act.rank]) (by simp [Act.rank])
    obtain ⟨x, hx⟩ := hcopy.closed_of_opened hm
    exact ⟨x, mem_after_of_rank_lt h.pairwise he (hsub _ hx) (by simp [Act.rank])⟩
  finished before u v after he := by
    obtain ⟨y, hy⟩ := h.finished_of_connected (u := u) (v := v) (by simp [he])
    exact ⟨y, mem_after_of_rank_lt h.pairwise he hy (by simp [Act.rank])⟩

end SessionCalls

/-! ## Command lines -/

namespace Command

/-- A command line that names a file by a locator, run without a session: the calls it makes are
the protocol of a session, cut short at the first failure, and they give everything back. -/
theorem invoke_protocol (p : Provider σ V F) {words : List Text.Glyphs} {c : Command}
    (ctx : Context V) (w : World σ) (hp : parse words false = .ok c) (hs : ctx.session = none) :
    ∃ settings url as,
      CommandLine.read (words.drop 1) = .ok settings ∧
      settings.options.map Directive.parse = c.directives.map .ok ∧ c.debug = settings.debug ∧
      Locator.parse settings.operand (settings.port.getD Port.standard) = .ok url ∧
      c.target = .locator url ∧
      invoke p words ctx w = ((c.execute p ctx w).1, {}, (c.execute p ctx w).2) ∧
      Acts p w as (c.execute p ctx w).2 ∧
      (c.execute p ctx w).2.recorded = w.recorded ++ as.map Act.entry ∧
      SessionCalls url c.directives (c.debug || ctx.debug.getD false) (as.filter Act.isCall) ∧
      Orderly (as.filter Act.isCall) := by
  obtain ⟨settings, hread, hset⟩ := exists_settings_of_parse hp
  obtain ⟨hoptions, htarget, hdebug, -⟩ := ofSettings_eq_ok hset
  obtain ⟨url, hurl, hlocator⟩ := Target.read_locator htarget
  have hsuits : c.Suits ctx := by simp [Suits, hs, hurl]
  obtain ⟨as, r, hacts, htrace, -⟩ := execute_trace p hsuits w
  have hcalls : SessionCalls url c.directives (c.debug || ctx.debug.getD false)
      (as.filter Act.isCall) := by
    cases htrace with
    | within hv => rw [hs] at hv; cases hv
    | alone _ ht halone =>
        rw [hurl, Target.locator.injEq] at ht
        subst ht
        exact halone.calls
  have hinvoke : invoke p words ctx w = ((c.execute p ctx w).1, {}, (c.execute p ctx w).2) := by
    simp [invoke, run, hs, hp]
  exact ⟨settings, url, as, hread, hoptions, hdebug, hlocator, hurl, hinvoke, hacts,
    hacts.recorded, hcalls, hcalls.orderly⟩

/-- The second of three directives is rejected, and ending the session fails too: there is no third
one, no log and no copy. -/
theorem invoke_protocol_rejected :
    let words := ["gfcat", "-d", "-o", "x.a=1", "-o", "x.b=2", "-o", "x.c=3", "glfs://h/v/f"].map
      Text.Glyphs.ofString
    let c : Command := ⟨.locator ⟨"h", "v", "/f", 24007⟩,
      [⟨"x", "a", "1"⟩, ⟨"x", "b", "2"⟩, ⟨"x", "c", "3"⟩], true, "glfs://h/v/f"⟩
    let w : World Script.State := { state := { script := {
      rejection := some ("x.b", { root := "no" }), finishFailure := some { root := "busy" } } } }
    parse words false = .ok c ∧ ({} : Context Unit).session = none ∧
      (invoke Script.provider words {} w).1 = .failure .config ∧
      ∃ as, Acts Script.provider w as (c.execute Script.provider {} w).2 ∧
        as.map Act.entry = [.call (.connect ⟨"h", "v", "/f", 24007⟩) none,
          .call (.setOption ⟨"x", "a", "1"⟩) none,
          .call (.setOption ⟨"x", "b", "2"⟩) (some { root := "no" }),
          .call .finish (some { root := "busy" })] ∧
        SessionCalls ⟨"h", "v", "/f", 24007⟩ c.directives true (as.filter Act.isCall) := by
  intro words c w
  have hp : parse words false = .ok c := rfl
  obtain ⟨settings, url, as, -, -, -, -, htarget, -, hacts, hrecorded, hcalls, -⟩ :=
    invoke_protocol Script.provider {} w hp rfl
  cases htarget
  exact ⟨hp, rfl, rfl, as, hacts, hrecorded.symm, hcalls⟩

end Command

end LockedCat
