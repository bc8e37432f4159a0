import LockedCat.Proofs.MemoryCopies
import LockedCat.Proofs.Pace
import LockedCat.Proofs.Protocol
import Mathlib.Algebra.Order.Floor.Div

/-!
# How a copy comes to its end

A copy reads until a read gives nothing or fails for good. How many reads that takes is a matter of
the open file and of the size of a chunk: a piece of data takes one read for each chunk that it
fills or begins, an interruption takes one more, and so does the end itself. Main statement: however
far a copy of a file has got, it has done no more than the one run that ends, and that run makes
just so many reads, unless the sink cuts it short.
-/

namespace LockedCat

variable {σ V F : Type}

/-! ## Runs that have not ended yet -/

/-- The same question, to the same provider and sink in the same state, has the same answer. -/
theorem Act.Does.determined {p : Provider σ V F} {w w₁ u u₁ : World σ} {a c : Act V F}
    (hac : a.Alike c) (hstate : u.state = w.state) (hsink : u.sink = w.sink)
    (ha : a.Does p w w₁) (hc : c.Does p u u₁) :
    c = a ∧ u₁.state = w₁.state ∧ u₁.sink = w₁.sink := by
  cases hac with
  | openFile | lock | read | close =>
      cases ha
      cases hc
      rw [hstate]
      exact ⟨rfl, rfl, hsink⟩
  | write =>
      obtain ⟨rfl, hs, hst⟩ := World.write_eq ha
      obtain ⟨rfl, hs', hst'⟩ := World.write_eq hc
      rw [hs, hs', hst, hst', hsink]
      exact ⟨rfl, hstate, rfl⟩
  | flush =>
      obtain ⟨rfl, hs, hst⟩ := World.flush_eq ha
      obtain ⟨rfl, hs', hst'⟩ := World.flush_eq hc
      rw [hs, hs', hst, hst', hsink]
      exact ⟨rfl, hstate, rfl⟩

/-- Whatever a copy has done so far is a beginning of what it does until it ends. -/
theorem Copy.Path.isPrefix_of_acts {p : Provider σ V F} {v : V} {path : String} {size : Nat}
    {φ φ' : Phase F} {as cs : List (Act V F)} {left : List UInt8} {w w' u u' : World σ}
    (h : Path v path size φ as φ') (hc : Path v path size φ cs (.closed left))
    (hstate : u.state = w.state) (hsink : u.sink = w.sink) (ha : Acts p w as w')
    (hu : Acts p u cs u') : as <+: cs := by
  induction h generalizing cs w u with
  | refl => exact List.nil_prefix
  | step hs _ ih =>
      cases hc with
      | refl => cases hs
      | step hs' hc =>
          obtain ⟨w₀, w₁, hstate₀, hsink₀, hd, ha₁⟩ := ha.head
          obtain ⟨u₀, u₁, hstate₁, hsink₁, hd', hu₁⟩ := hu.head
          obtain ⟨rfl, hstate', hsink'⟩ := hd.determined (hs.alike hs')
            (by rw [hstate₁, hstate, hstate₀]) (by rw [hsink₁, hsink, hsink₀]) hd'
          cases hs.eq hs'
          exact List.cons_prefix_cons.mpr ⟨rfl, ih hc hstate' hsink' ha₁ hu₁⟩

/-! ## Counting reads -/

def Act.isRead : Act V F → Bool
  | read .. => true
  | _ => false

/-- How many reads there are among these acts. -/
def reads (as : List (Act V F)) : Nat := as.countP Act.isRead

theorem reads_append (as bs : List (Act V F)) : reads (as ++ bs) = reads as + reads bs :=
  List.countP_append

theorem reads_cons_read (f : F) (size : Nat) (answer : Except IoError (List UInt8))
    (as : List (Act V F)) : reads (.read f size answer :: as) = reads as + 1 :=
  List.countP_cons_of_pos rfl

/-- So many reads of at most `size` bytes come to the end of an open file, and this is the answer to
the last of them. -/
inductive Lasts (p : Provider σ V F) (f : F) (size : Nat) :
    σ → Nat → Except IoError (List UInt8) → Prop where
  | last {s answer} : (p.read f size s).result = answer → ¬Continues answer →
      Lasts p f size s 1 answer
  | more {s n answer} : Continues (p.read f size s).result →
      Lasts p f size (p.read f size s).state n answer → Lasts p f size s (n + 1) answer

theorem Lasts.pos {p : Provider σ V F} {f : F} {size n : Nat} {s : σ}
    {answer : Except IoError (List UInt8)} (h : Lasts p f size s n answer) : 1 ≤ n := by
  cases h <;> omega

/-- A read that has more to come after it. -/
theorem Lasts.rest {p : Provider σ V F} {f : F} {size n : Nat} {s : σ}
    {answer : Except IoError (List UInt8)} (h : Lasts p f size s n answer)
    (hc : Continues (p.read f size s).result) :
    ∃ m, n = m + 1 ∧ Lasts p f size (p.read f size s).state m answer := by
  cases h with
  | last hr hn => exact absurd (hr ▸ hc) hn
  | more _ h => exact ⟨_, rfl, h⟩

/-- The read that the file ends with. -/
theorem Lasts.ends {p : Provider σ V F} {f : F} {size n : Nat} {s : σ}
    {answer : Except IoError (List UInt8)} (h : Lasts p f size s n answer)
    (hc : ¬Continues (p.read f size s).result) :
    n = 1 ∧ answer = (p.read f size s).result := by
  cases h with
  | last hr => exact ⟨rfl, hr.symm⟩
  | more hc' => exact absurd hc' hc

/-- Acts that are no calls leave the provider as it was. -/
theorem Acts.state_of_calls {p : Provider σ V F} {w w' : World σ} {as : List (Act V F)}
    (h : Acts p w as w') (hn : as.filter Act.isCall = []) : w'.state = w.state := by
  induction h with
  | refl => rfl
  | report level message _ ih => exact ih hn
  | @act w w₁ w' a as ha _ ih =>
      cases hc : a.isCall with
      | true => simp [hc] at hn
      | false =>
          rw [List.filter_cons_of_neg (by simp [hc])] at hn
          rw [ih hn]
          cases a with
          | write => exact (World.write_eq ha).2.2
          | flush => exact (World.flush_eq ha).2.2
          | _ => cases hc

theorem reads_of_calls {as : List (Act V F)} (h : as.filter Act.isCall = []) : reads as = 0 := by
  rw [reads, List.countP_eq_zero]
  intro a ha hr
  have hc : a.isCall := by
    cases a <;> first | rfl | cases hr
  exact List.filter_eq_nil_iff.mp h a ha hc

theorem Acts.read_head {p : Provider σ V F} {w w' : World σ} {f : F} {size : Nat}
    {answer : Except IoError (List UInt8)} {as : List (Act V F)}
    (h : Acts p w (.read f size answer :: as) w') :
    (p.read f size w.state).result = answer ∧
      ∃ w₁, w₁.state = (p.read f size w.state).state ∧ Acts p w₁ as w' := by
  obtain ⟨w₀, w₁, hstate, -, hd, h⟩ := h.head
  have hd : w₀.read p f size = (answer, w₁) := hd
  rw [← hstate]
  exact ⟨congrArg Prod.fst hd, w₁, congrArg (·.2.state) hd.symm, h⟩

/-- What the result of a transfer says of the reads that it made: they are all that the file lasts
if the copy succeeded, and all of them too if it failed at anything but the sink. -/
structure Counted (as : List (Act V F)) (n : Nat) (answer : Except IoError (List UInt8))
    (r : Except Chain Nat) : Prop where
  bounded : reads as ≤ n
  all : (∀ e : IoError, r ≠ .error (e.chain.within "write error")) → reads as = n
  ended : ∀ count, r = .ok count → answer = .ok []

theorem Counted.cons {as bs : List (Act V F)} {n : Nat} {answer : Except IoError (List UInt8)}
    {r : Except Chain Nat} (h : Counted as n answer r) (hb : reads bs = reads as + 1) :
    Counted bs (n + 1) answer r where
  bounded := by
    rw [hb]
    exact Nat.add_le_add_right h.bounded 1
  all hr := by rw [hb, h.all hr]
  ended := h.ended

theorem TransferTrace.counted {p : Provider σ V F} {f : F} {size copied n : Nat}
    {as : List (Act V F)} {r : Except Chain Nat} {answer : Except IoError (List UInt8)}
    {w w' : World σ} (h : TransferTrace f size copied as r) (ha : Acts p w as w')
    (hl : Lasts p f size w.state n answer) : Counted as n answer r := by
  -- Each read is one of those that the file lasts; what is written in between does not count.
  induction h generalizing w n with
  | finished =>
      obtain ⟨hr, -⟩ := ha.read_head
      obtain ⟨rfl, rfl⟩ := hl.ends (by simp [hr, Continues])
      exact ⟨Nat.le_refl _, fun _ => rfl, fun _ _ => hr⟩
  | unflushed =>
      obtain ⟨hr, -⟩ := ha.read_head
      obtain ⟨rfl, rfl⟩ := hl.ends (by simp [hr, Continues])
      exact ⟨Nat.le_refl _, fun _ => rfl, fun _ hr => by cases hr⟩
  | @chunk copied bytes ws as r hb hw _ ih =>
      obtain ⟨hr, w₁, hstate, ha₁⟩ := ha.read_head
      obtain ⟨m, rfl, hrest⟩ := hl.rest (by rw [hr]; exact hb)
      obtain ⟨w₂, hws, ha₂⟩ := ha₁.unappend
      rw [← hstate, ← hws.state_of_calls hw.calls] at hrest
      refine (ih ha₂ hrest).cons ?_
      rw [reads_cons_read, reads_append, reads_of_calls hw.calls, Nat.zero_add]
  | @unwritten copied bytes ws e hb hw =>
      refine ⟨?_, fun hr => absurd rfl (hr e), fun _ hr => by cases hr⟩
      rw [reads_cons_read, reads_of_calls hw.calls]
      exact hl.pos
  | again he _ ih =>
      obtain ⟨hr, w₁, hstate, ha₁⟩ := ha.read_head
      obtain ⟨m, rfl, hrest⟩ := hl.rest (by rw [hr]; exact he)
      rw [← hstate] at hrest
      exact (ih ha₁ hrest).cons (reads_cons_read ..)
  | failed he =>
      obtain ⟨hr, -⟩ := ha.read_head
      obtain ⟨rfl, rfl⟩ := hl.ends (by rw [hr]; exact he)
      exact ⟨Nat.le_refl _, fun _ => rfl, fun _ hr => by cases hr⟩

/-- What the result of locking and copying an open file says of its reads. -/
theorem LockTrace.counted {p : Provider σ V F} {f : F} {path target : String} {chunk n : Nat}
    {as : List (Act V F)} {r : Except Error Nat} {answer : Except IoError (List UInt8)}
    {w w' : World σ} (h : LockTrace f path target chunk as r) (ha : Acts p w as w')
    (hl : (p.lock f .write w.state).result = .ok () →
      Lasts p f (Copy.readSize chunk) (p.lock f .write w.state).state n answer) :
    reads as ≤ n ∧ ∀ r' : Except Chain Nat, r = r'.mapError (⟨.copy .transfer, target, ·⟩) →
      Counted as n answer r' := by
  have htransfer {as : List (Act V F)} {r' : Except Chain Nat}
      (ht : TransferTrace f (Copy.readSize chunk) 0 as r')
      (ha : Acts p w (.lock f .write (.ok ()) :: as) w') :
      Counted (.lock f .write (.ok ()) :: as) n answer r' := by
    obtain ⟨w₀, w₁, hstate, -, hd, ha₁⟩ := ha.head
    have hd : w₀.lock p f .write = (.ok (), w₁) := hd
    have hw₁ : w₁.state = (p.lock f .write w.state).state := by
      rw [← hstate]
      exact congrArg (·.2.state) hd.symm
    have hcounted := ht.counted ha₁ (hw₁ ▸ hl (hstate ▸ congrArg Prod.fst hd))
    exact ⟨hcounted.bounded, hcounted.all, hcounted.ended⟩
  cases h with
  | unlocked => exact ⟨Nat.zero_le _, fun r' hr => by cases r' <;> cases hr⟩
  | broken ht =>
      refine ⟨(htransfer ht ha).bounded, fun r' hr => ?_⟩
      cases r' with
      | ok => cases hr
      | error c' =>
          cases hr
          exact htransfer ht ha
  | copied ht =>
      refine ⟨(htransfer ht ha).bounded, fun r' hr => ?_⟩
      cases r' with
      | error => cases hr
      | ok n =>
          cases hr
          exact htransfer ht ha

/-- A copy reads a file only if it can open and lock it, and then for as long as the file lasts. -/
theorem CopyTrace.counted {p : Provider σ V F} {v : V} {path target : String} {chunk n : Nat}
    {as : List (Act V F)} {r : Except Error Nat} {answer : Except IoError (List UInt8)}
    {w w' : World σ} (h : CopyTrace v path target chunk as r) (ha : Acts p w as w')
    (hl : ∀ f, (p.openFile v path w.state).result = .ok f →
      (p.lock f .write (p.openFile v path w.state).state).result = .ok () →
      Lasts p f (Copy.readSize chunk) (p.lock f .write (p.openFile v path w.state).state).state
        n answer) :
    reads as ≤ n ∧ ∀ r' : Except Chain Nat, r = r'.mapError (⟨.copy .transfer, target, ·⟩) →
      Counted as n answer r' := by
  have hlocked {f : F} {as : List (Act V F)} {r : Except Error Nat} {x : Except IoError Unit}
      (h : LockTrace f path target chunk as r)
      (ha : Acts p w (.openFile v path (.ok f) :: (as ++ [.close f x])) w') :
      reads (.openFile v path (.ok f) :: (as ++ [.close f x])) = reads as ∧ reads as ≤ n ∧
        ∀ r' : Except Chain Nat, r = r'.mapError (⟨.copy .transfer, target, ·⟩) →
          Counted as n answer r' := by
    obtain ⟨w₀, w₁, hstate, -, hd, ha₁⟩ := ha.head
    have hd : w₀.openFile p v path = (.ok f, w₁) := hd
    have hw₁ : w₁.state = (p.openFile v path w.state).state := by
      rw [← hstate]
      exact congrArg (·.2.state) hd.symm
    obtain ⟨w₂, ha₂, -⟩ := ha₁.unappend
    refine ⟨?_, h.counted ha₂ (hw₁ ▸ hl f (hstate ▸ congrArg Prod.fst hd))⟩
    exact reads_append as [.close f x]
  cases h with
  | unopened => exact ⟨Nat.zero_le _, fun r' hr => by cases r' <;> cases hr⟩
  | closed h =>
      obtain ⟨hreads, hle, hcounted⟩ := hlocked h ha
      refine ⟨hreads ▸ hle, fun r' hr => ?_⟩
      obtain ⟨hbounded, hall, hended⟩ := hcounted r' hr
      exact ⟨hreads ▸ hbounded, hreads ▸ hall, hended⟩
  | unclosed h =>
      obtain ⟨hreads, hle, -⟩ := hlocked h ha
      exact ⟨hreads ▸ hle, fun r' hr => by cases r' <;> cases hr⟩

/-! ## Scripted files -/

/-- How many reads of at most `size` bytes a piece takes: one for each chunk of data that it fills
or begins, and one for an interruption. -/
def Piece.reads (size : Nat) : Piece → Nat
  | .data bytes => bytes.length ⌈/⌉ size
  | .failure e => if e.isInterrupted then 1 else 0

namespace Script

/-- How many reads of at most `size` bytes a file takes that ends: those of the pieces before its
end, and one that finds the end. -/
def readCount (size : Nat) (pieces : List Piece) : Nat :=
  ((pieces.takeWhile (· ≠ .data [])).map (Piece.reads size)).sum + 1

theorem ceilDiv_eq_succ {n size : Nat} (hs : 0 < size) (hn : 0 < n) :
    n ⌈/⌉ size = (n - size) ⌈/⌉ size + 1 := by
  rw [Nat.ceilDiv_eq_add_pred_div, Nat.ceilDiv_eq_add_pred_div, ← Nat.add_div_right _ hs]
  rcases Nat.lt_or_ge n size with hlt | hge
  · have hless : n + size - 1 = n - 1 + size := by omega
    have hnone : n - size + size - 1 + size = size - 1 + size := by omega
    rw [hless, hnone, Nat.add_div_right _ hs, Nat.add_div_right _ hs,
      Nat.div_eq_of_lt (by omega), Nat.div_eq_of_lt (by omega)]
  · congr 1
    omega

theorem readCount_cons (size : Nat) {piece : Piece} (h : piece ≠ .data []) (rest : List Piece) :
    readCount size (piece :: rest) = piece.reads size + readCount size rest := by
  rw [readCount, List.takeWhile_cons_of_pos (by simpa using h), List.map_cons, List.sum_cons,
    Nat.add_assoc]
  rfl

/-- A read with more to come takes one off the reads of the file. -/
theorem readCount_take {size : Nat} (hs : 0 < size) {pieces : List Piece}
    (h : Continues (take size pieces).1) :
    readCount size pieces = readCount size (take size pieces).2 + 1 := by
  match pieces with
  | [] => exact absurd rfl h
  | .failure e :: rest =>
      have he : e.isInterrupted := h
      rw [readCount_cons size (by simp), Piece.reads, if_pos he, Nat.add_comm]
      rfl
  | .data [] :: rest => exact absurd h (by simp [take, Continues])
  | .data (b :: bytes) :: rest =>
      have hone := ceilDiv_eq_succ hs (Nat.succ_pos bytes.length)
      rw [readCount_cons size (by simp), Piece.reads, List.length_cons, hone]
      cases hd : (b :: bytes).drop size with
      | nil =>
          have hzero : bytes.length + 1 - size = 0 := by
            rw [← List.length_cons (a := b), ← List.length_drop, hd, List.length_nil]
          simp only [take, hd, hzero, zero_ceilDiv]
          omega
      | cons b' more =>
          have hlen : bytes.length + 1 - size = (b' :: more).length := by
            rw [← hd, List.length_drop, List.length_cons]
          simp only [take, hd, hlen]
          rw [readCount_cons size (by simp), Piece.reads]
          omega

/-- A read with more to come leaves the end of the stream as it was. -/
theorem Gives.fault?_eq {pieces rest : List Piece} {answer : Except IoError (List UInt8)}
    (h : Gives pieces answer rest) (hc : Continues answer) : fault? rest = fault? pieces := by
  cases h with
  | stop => exact absurd rfl hc
  | more _ hf => exact hf.symm
  | again _ _ hf => exact hf.symm
  | fail he => exact absurd hc he

theorem Gives.eq_lastAnswer {pieces rest : List Piece} {answer : Except IoError (List UInt8)}
    (h : Gives pieces answer rest) (hc : ¬Continues answer) :
    answer = lastAnswer (fault? pieces) ∧ delivered pieces = [] := by
  cases h with
  | stop hd hf => exact ⟨by rw [hf]; rfl, hd⟩
  | more => exact absurd (List.cons_ne_nil _ _) hc
  | again he => exact absurd he hc
  | fail _ hd hf => exact ⟨by rw [hf]; rfl, hd⟩

theorem readCount_of_end {size : Nat} {pieces : List Piece} (hd : delivered pieces = [])
    (hf : fault? pieces = none) (hc : ∀ e rest, pieces = .failure e :: rest → ¬e.isInterrupted) :
    readCount size pieces = 1 := by
  match pieces with
  | [] | .data [] :: _ => rfl
  | .failure e :: rest => simp [fault?, hc e rest rfl] at hf
  | .data (b :: bytes) :: rest => cases hd

/-- A scripted file lasts as long as its script says. -/
theorem lasts {size : Nat} (hs : 0 < size) (pieces : List Piece) :
    ∃ n ≤ readCount size pieces, (fault? pieces = none → n = readCount size pieces) ∧
      ∀ f s, s.left f = pieces → Lasts provider f size s n (lastAnswer (fault? pieces)) := by
  -- Every read with more to come leaves less of the script.
  induction hw : weight pieces using Nat.strong_induction_on generalizing pieces with
  | _ weight ih =>
      subst hw
      have hgives := take_gives hs pieces
      by_cases hc : Continues (take size pieces).1
      · obtain ⟨n, hn, hall, hlasts⟩ := ih _ (weight_take pieces hs hc) _ rfl
        rw [hgives.fault?_eq hc] at hall hlasts
        rw [readCount_take hs hc]
        refine ⟨n + 1, Nat.add_le_add_right hn 1, fun hf => by rw [hall hf], ?_⟩
        rintro f s rfl
        exact .more hc (hlasts f _ (left_read s f size))
      · obtain ⟨hanswer, hd⟩ := hgives.eq_lastAnswer hc
        refine ⟨1, Nat.le_add_left _ _, fun hf => ?_, ?_⟩
        · refine (readCount_of_end hd hf fun e rest he => ?_).symm
          rwa [he] at hc
        · rintro f s rfl
          exact hanswer ▸ .last rfl hc

theorem state_reply {ε α : Type} (s : State) (value : α) (failure : Option ε) :
    (reply s value failure).state = s := by
  cases failure <;> rfl

/-- A file that was opened has all of its script to give, locked or not. -/
theorem left_of_open {s : State} {path : String} {f : Nat}
    (h : (provider.openFile () path s).result = .ok f) :
    (provider.lock f .write (provider.openFile () path s).state).state.left f =
      s.script.pieces := by
  have hlock (s : State) : (provider.lock f .write s).state = s := state_reply ..
  rw [hlock]
  cases ho : s.script.openFailure with
  | some e => simp [provider, ho] at h
  | none =>
      have hf : s.files.length = f := by simpa [provider, ho] using h
      simp [provider, State.left, ho, ← hf]

end Script

/-! ## Files in memory -/

namespace Memory

open Script

/-- A file in memory lasts for each chunk of what is readable in it, and for one read more. -/
theorem Reading.lasts {m m' : State} {f position : Nat} {path : String} {data : Contents}
    {size : Nat} (hs : 0 < size) (h : Reading m f path data position m') :
    Lasts provider f size m' ((readable m.failReadAfter data - position) ⌈/⌉ size + 1)
      (lastAnswer (fault m.failReadAfter data)) := by
  -- Every read before the end brings the position closer to it.
  induction hn : readable m.failReadAfter data - position using Nat.strong_induction_on
    generalizing m' position with
  | _ n ih =>
      subst hn
      rcases Nat.lt_or_ge position (readable m.failReadAfter data) with hlt | hend
      · obtain ⟨hresult, hreading⟩ := h.read_on size hlt
        have hleft : readable m.failReadAfter data -
            min (position + size) (readable m.failReadAfter data) =
              readable m.failReadAfter data - position - size := by omega
        have hrest := ih _ (by omega) hreading rfl
        rw [hleft] at hrest
        rw [ceilDiv_eq_succ hs (by omega)]
        refine .more ?_ hrest
        rw [hresult]
        exact Reading.stretch_ne_nil hs hlt
      · obtain ⟨hresult, -⟩ := h.read_end size hend
        have hzero : readable m.failReadAfter data - position = 0 := by omega
        rw [hzero, zero_ceilDiv]
        refine .last hresult ?_
        cases hf : fault m.failReadAfter data with
        | none => exact fun hc => hc rfl
        | some e => exact fault_lasts _ _ _ hf

/-- A file that can be opened and locked is read from its beginning. -/
theorem reading_of_open {m : State} {path : String} {data : Contents}
    (hf : m.isFinished = false) (hd : m.contents? path = some data) (hl : path ∉ m.foreignLocks) :
    (provider.openFile () path m).result = .ok m.handles.length ∧
      Reading m m.handles.length path data 0
        (provider.lock m.handles.length .write (provider.openFile () path m).state).state := by
  obtain ⟨m₁, hopen, hx⟩ := openFile_opened hf hd
  obtain ⟨m₂, hlock, hx₂⟩ := hx.lock_granted hl
  rw [hopen, hlock]
  exact ⟨rfl, hx₂, Nat.zero_le _⟩

/-- What a copy of a file that can be opened, locked and closed comes to. -/
theorem outcome_eq {m : State} {path target : String} {data : Contents}
    (hf : m.isFinished = false) (hd : m.contents? path = some data) (hl : path ∉ m.foreignLocks)
    (hc : m.failClose = false) (flushFailure : Option IoError) :
    outcome m path target flushFailure =
      ((ending (stream (data.stretch 0 (readable m.failReadAfter data))
          (fault m.failReadAfter data)) 0 flushFailure).mapError (⟨.copy .transfer, target, ·⟩),
        data.stretch 0 (readable m.failReadAfter data)) := by
  simp [outcome, underLock, afterClose, hf, hd, hl, hc]

/-- Without a limit within the file, all of it is readable. -/
theorem readable_of_lt {limit : Option Nat} {data : Contents}
    (h : ∀ n, limit = some n → data.size < n) :
    readable limit data = data.size ∧ fault limit data = none := by
  cases limit with
  | none => exact ⟨rfl, rfl⟩
  | some n =>
      have hlt := h n rfl
      have hle : ¬n ≤ data.size := by omega
      exact ⟨Nat.min_eq_right (by omega), by simp [fault, hle]⟩

/-- With one, the file is readable up to the limit, and there reads fail. -/
theorem readable_of_le {n : Nat} {data : Contents} (h : n ≤ data.size) :
    readable (some n) data = n ∧ fault (some n) data = some (.errno Errno.inputOutput) :=
  ⟨Nat.min_eq_left h, by simp [fault, h]⟩

/-- How a transfer of what is readable in a file ends, to a sink that takes everything. -/
theorem ending_readable (limit : Option Nat) (data : Contents) :
    ending (stream (data.stretch 0 (readable limit data)) (fault limit data)) 0 none =
      match fault limit data with
      | some e => .error (e.chain.within
          ("read error after " ++ toString (readable limit data) ++ " bytes"))
      | none => .ok (readable limit data) := by
  have hlasts := fault_lasts limit data
  have hlen : (data.stretch 0 (readable limit data)).length = readable limit data := by
    rw [Contents.length_stretch, Nat.min_eq_left (readable_le limit data), Nat.sub_zero]
  unfold ending
  rw [fault?_stream hlasts, delivered_stream hlasts, hlen, Nat.zero_add]
  cases fault limit data <;> rfl

/-- The text of a read that failed is no text of a write that failed. -/
theorem within_read_error_ne (e x : IoError) (count : String) :
    e.chain.within ("read error after " ++ count ++ " bytes") ≠ x.chain.within "write error" := by
  intro h
  have htext : "read error after " ++ count ++ " bytes" = "write error" := by
    injection h with hcontexts
    exact (List.cons.inj hcontexts).1
  have hhead := congrArg (·.toList.head?) htext
  simp [String.toList_append] at hhead

end Memory

/-! ## Copies -/

namespace Copy

open Script (readCount fault? lastAnswer)

/-- A copy of a scripted file ends: what it has done is at any time a beginning of one finite run.
If the run succeeds, it reads once for each chunk of the data, once for each interruption and once
for the end; otherwise it reads no more than that. On a volume in memory, a copy to a sink that
takes everything reads once for each chunk of what is readable, and once more. -/
theorem copy_ends (path target : String) (chunk : Nat) :
    (∀ w : World Script.State,
      ∃ as left, Acts Script.provider w as (copy Script.provider () path target chunk w).2 ∧
        Path () path (max chunk 1) .opening as (.closed left) ∧
        (∀ bs φ w₁, Path () path (max chunk 1) .opening bs φ → Acts Script.provider w bs w₁ →
          bs <+: as) ∧
        reads as ≤ readCount (max chunk 1) w.state.script.pieces ∧
        ∀ count, (copy Script.provider () path target chunk w).1 = .ok count →
          reads as = readCount (max chunk 1) w.state.script.pieces) ∧
    ∀ (w : World Memory.State) (data : Contents), w.state.isFinished = false →
      w.state.contents? path = some data → path ∉ w.state.foreignLocks →
      w.state.failClose = false →
      w.sink.answers = [] → w.sink.limit = none → w.sink.flushFailure = none →
      ∃ as, Acts Memory.provider w as (copy Memory.provider () path target chunk w).2 ∧
        ((∀ limit, w.state.failReadAfter = some limit → data.size < limit) →
          reads as = data.size ⌈/⌉ max chunk 1 + 1 ∧
          (copy Memory.provider () path target chunk w).1 = .ok data.size ∧
          (copy Memory.provider () path target chunk w).2.sink.received =
            w.sink.received ++ data.toList) ∧
        ∀ limit, w.state.failReadAfter = some limit → limit ≤ data.size →
          reads as = limit ⌈/⌉ max chunk 1 + 1 ∧
          (copy Memory.provider () path target chunk w).1 = .error ⟨.copy .transfer, target,
            (IoError.errno Errno.inputOutput).chain.within
              ("read error after " ++ toString limit ++ " bytes")⟩ ∧
          (copy Memory.provider () path target chunk w).2.sink.received =
            w.sink.received ++ data.toList.take limit := by
  refine ⟨fun w => ?_, fun w data hf hd hl hc ha hlimit hflush => ?_⟩
  · obtain ⟨as, hacts, ht⟩ := copy_trace Script.provider () path target chunk w
    obtain ⟨left, hpath⟩ := ht.path
    refine ⟨as, left, hacts, hpath, fun bs φ w₁ hb hbs =>
      hb.isPrefix_of_acts hpath rfl rfl hbs hacts, ?_⟩
    obtain ⟨n, hn, hall, hlasts⟩ := Script.lasts (readSize chunk).2 w.state.script.pieces
    obtain ⟨hle, hcounted⟩ := ht.counted hacts fun f hf _ => hlasts f _ (Script.left_of_open hf)
    refine ⟨Nat.le_trans hle hn, fun count hr => ?_⟩
    have hdone := hcounted (.ok count) hr
    have hends : fault? w.state.script.pieces = none := by
      have hlast := hdone.ended count rfl
      cases hf : fault? w.state.script.pieces with
      | none => rfl
      | some e => simp [hf, lastAnswer] at hlast
    rw [hdone.all nofun, hall hends]
    rfl
  · obtain ⟨as, hacts, ht⟩ := copy_trace Memory.provider () path target chunk w
    obtain ⟨hopen, hreading⟩ := Memory.reading_of_open hf hd hl
    have hcame := Memory.copy_cameTo path target chunk w ha hlimit
    rw [Memory.outcome_eq hf hd hl hc, hflush] at hcame
    obtain ⟨-, hcounted⟩ := ht.counted hacts fun f hf' _ => by
      rw [hopen] at hf'
      cases hf'
      exact hreading.lasts (readSize chunk).2
    obtain ⟨hresult, ⟨hreceived, -⟩, -⟩ := hcame
    have hcount := (hcounted _ hresult).all
    rw [Memory.ending_readable] at hcount hresult
    have htake (n : Nat) : data.stretch 0 n = data.toList.take n := by
      rw [Contents.stretch_eq, List.drop_zero, Nat.sub_zero]
    rw [htake] at hreceived
    refine ⟨as, hacts, fun hbeyond => ?_, fun limit hl hle => ?_⟩
    · obtain ⟨hreadable, hfault⟩ := Memory.readable_of_lt hbeyond
      rw [hreadable, hfault] at hcount hresult
      rw [hreadable, List.take_of_length_le (Nat.le_of_eq data.length_toList)] at hreceived
      exact ⟨hcount nofun, hresult, hreceived⟩
    · obtain ⟨hreadable, hfault⟩ := Memory.readable_of_le hle
      rw [hl, hreadable, hfault] at hcount hresult
      rw [hl, hreadable] at hreceived
      refine ⟨hcount fun x hx => ?_, hresult, hreceived⟩
      injection hx with hx
      exact Memory.within_read_error_ne _ x _ hx

/-- Two chunks, an interruption, one more chunk and the end; and a file that can be read for two
chunks of the three that it has. -/
theorem copy_ends_midway :
    let w : World Script.State := { state := { script := { pieces :=
      [.data [1, 2, 3], .failure (.simple .interrupted), .data [4], .data [], .data [5]] } } }
    let m : World Memory.State := { state := {
      files := [("/f", #[1, 2, 3, 4, 5])], failReadAfter := some 4 } }
    ((copy Script.provider () "/f" "f" 2 w).1 = .ok 4 ∧
      ∃ as, Acts Script.provider w as (copy Script.provider () "/f" "f" 2 w).2 ∧
        (∀ bs φ w₁, Path () "/f" 2 .opening bs φ → Acts Script.provider w bs w₁ → bs <+: as) ∧
        reads as = 5) ∧
    m.state.isFinished = false ∧ m.state.contents? "/f" = some #[1, 2, 3, 4, 5] ∧
      "/f" ∉ m.state.foreignLocks ∧ m.state.failClose = false ∧
      m.sink.answers = [] ∧ m.sink.limit = none ∧ m.sink.flushFailure = none ∧
      ∃ as, Acts Memory.provider m as (copy Memory.provider () "/f" "f" 2 m).2 ∧
        reads as = 3 ∧ (copy Memory.provider () "/f" "f" 2 m).2.sink.received = [1, 2, 3, 4] ∧
        (copy Memory.provider () "/f" "f" 2 m).1 = .error ⟨.copy .transfer, "f",
          (IoError.errno Errno.inputOutput).chain.within "read error after 4 bytes"⟩ := by
  intro w m
  have hsucceeds : (copy Script.provider () "/f" "f" 2 w).1 = .ok 4 := by
    obtain ⟨w₁, hsink, hleft, hresult, -⟩ := Script.copy_eq_transfer "/f" "f" 2 (w := w) rfl rfl rfl
    have hdelivers := transfer_delivers w.state.files.length (readSize 2) 0 w₁ (hsink ▸ rfl)
    rw [hresult, (hdelivers.unlimited (hsink ▸ rfl)).1, hleft, hsink]
    rfl
  obtain ⟨hscript, hmemory⟩ := copy_ends "/f" "f" 2
  obtain ⟨as, left, hacts, -, hprefix, -, hcount⟩ := hscript w
  have habsent : "/f" ∉ m.state.foreignLocks := List.not_mem_nil
  obtain ⟨bs, hacts', -, hlimited⟩ := hmemory m #[1, 2, 3, 4, 5] rfl rfl habsent rfl rfl rfl rfl
  obtain ⟨hcount', hresult, hreceived⟩ := hlimited 4 rfl (by decide)
  exact ⟨⟨hsucceeds, as, hacts, hprefix, hcount 4 hsucceeds⟩, rfl, rfl, habsent, rfl, rfl, rfl, rfl,
    bs, hacts', hcount', hreceived, hresult⟩

end Copy

end LockedCat
