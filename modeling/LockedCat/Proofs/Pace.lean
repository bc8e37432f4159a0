import LockedCat.Proofs.Trace

/-!
# The pace of a copy

A copy holds one chunk of its file at a time: it reads, hands what it read to the sink until the
sink has taken all of it, and only then reads on. The phases below are where it stands between two
acts; a step says which act can come next and where the answer leads, whatever volume and sink give
the answer and whether or not the file ever ends. Main statement: at every moment of a copy the sink
has taken the bytes read so far but for a chunk at most at their end, and all of them before the
next read; once the sink has failed it is left alone, and the file is only closed.
-/

namespace LockedCat

variable {σ V F : Type}

/-! ## Bytes read and taken -/

namespace Act

/-- The bytes that an act gets out of a file. -/
def given : Act V F → List UInt8
  | read _ _ (.ok bytes) => bytes
  | _ => []

/-- The bytes that the sink takes in an act. -/
def taken : Act V F → List UInt8
  | write bytes (.ok n) => bytes.take n
  | _ => []

/-- The act reads from a file or turns to the sink. -/
def transfers : Act V F → Bool
  | read .. | write .. | flush _ => true
  | _ => false

/-- The sink lets the copy down for good: it fails, or it takes nothing. -/
def sinkFails : Act V F → Bool
  | write _ (.ok n) => n = 0
  | write _ (.error e) => !e.isInterrupted
  | flush failure => failure.isSome
  | _ => false

/-- A read gets no more than it asked for, and a write takes no more than it was given. -/
def WithinBounds : Act V F → Prop
  | read _ size (.ok bytes) => bytes.length ≤ size
  | write bytes (.ok n) => n ≤ bytes.length
  | _ => True

end Act

def given (as : List (Act V F)) : List UInt8 := as.flatMap Act.given

def taken (as : List (Act V F)) : List UInt8 := as.flatMap Act.taken

theorem Act.Does.received {p : Provider σ V F} {w w' : World σ} {a : Act V F}
    (h : a.Does p w w') : w'.sink.received = w.sink.received ++ a.taken := by
  cases a with
  | write bytes r =>
      obtain ⟨hr, hsink, -⟩ := World.write_eq h
      rw [hsink, Sink.received_write, hr]
      cases r <;> simp [taken, Sink.taken]
  | flush r =>
      cases h
      simp [taken, Sink.received]
  | _ =>
      cases h
      simp [taken]

/-- The sink holds what it held before and what it took since. -/
theorem Acts.received {p : Provider σ V F} {w w' : World σ} {as : List (Act V F)}
    (h : Acts p w as w') : w'.sink.received = w.sink.received ++ taken as := by
  induction h with
  | refl => simp [taken]
  | report level message _ ih => exact ih
  | act ha _ ih => rw [ih, ha.received, taken, taken, List.flatMap_cons, List.append_assoc]

theorem Acts.withinBounds {p : Provider σ V F} {w w' : World σ} {as : List (Act V F)}
    (h : Acts p w as w') : ∀ a ∈ as, a.WithinBounds := by
  induction h with
  | refl => simp
  | report level message _ ih => exact ih
  | @act w w₁ w' a as ha _ ih =>
      refine List.forall_mem_cons.mpr ⟨?_, ih⟩
      match a, ha with
      | .read f size (.ok bytes), ha =>
          exact p.length_read f size w.state bytes (congrArg Prod.fst ha)
      | .write bytes (.ok n), ha =>
          have hn := Sink.taken_write_le w.sink bytes
          rwa [(World.write_eq ha).1] at hn
      | .read _ _ (.error _), _ | .write _ (.error _), _ | .connect .., _ | .setOption .., _
      | .setLogging .., _ | .openFile .., _ | .lock .., _ | .close .., _ | .finish .., _
      | .flush _, _ => trivial

/-! ## Phases -/

namespace Copy

/-- Where a copy stands between two acts, with the bytes that were read and that the sink has not
taken. -/
inductive Phase (F : Type) where
  | opening
  | locking (f : F)
  | moving (f : F) (left : List UInt8)
  | flushing (f : F)
  | closing (f : F) (left : List UInt8)
  | closed (left : List UInt8)

namespace Phase

def left : Phase F → List UInt8
  | moving _ left | closing _ left | closed left => left
  | _ => []

/-- The copy is past all reads, writes and flushes. -/
def Past : Phase F → Prop
  | closing .. | closed _ => True
  | _ => False

end Phase

/-- One act of a copy that reads `size` bytes at a time, and where its answer leads. -/
inductive Step (v : V) (path : String) (size : Nat) : Phase F → Act V F → Phase F → Prop where
  | unopened {e} : Step v path size .opening (.openFile v path (.error e)) (.closed [])
  | opened {f} : Step v path size .opening (.openFile v path (.ok f)) (.locking f)
  | unlocked {f e} : Step v path size (.locking f) (.lock f .write (.error e)) (.closing f [])
  | locked {f} : Step v path size (.locking f) (.lock f .write (.ok ())) (.moving f [])
  | ended {f} : Step v path size (.moving f []) (.read f size (.ok [])) (.flushing f)
  | read {f bytes} : bytes ≠ [] →
      Step v path size (.moving f []) (.read f size (.ok bytes)) (.moving f bytes)
  | reread {f e} : e.isInterrupted →
      Step v path size (.moving f []) (.read f size (.error e)) (.moving f [])
  | unread {f e} : ¬e.isInterrupted →
      Step v path size (.moving f []) (.read f size (.error e)) (.closing f [])
  | written {f left n} : left ≠ [] →
      Step v path size (.moving f left) (.write left (.ok (n + 1))) (.moving f (left.drop (n + 1)))
  | rewritten {f left e} : left ≠ [] → e.isInterrupted →
      Step v path size (.moving f left) (.write left (.error e)) (.moving f left)
  | refused {f left} : left ≠ [] →
      Step v path size (.moving f left) (.write left (.ok 0)) (.closing f left)
  | unwritten {f left e} : left ≠ [] → ¬e.isInterrupted →
      Step v path size (.moving f left) (.write left (.error e)) (.closing f left)
  | flushed {f r} : Step v path size (.flushing f) (.flush r) (.closing f [])
  | closed {f left r} : Step v path size (.closing f left) (.close f r) (.closed left)

namespace Step

variable {v : V} {path : String} {size n : Nat} {φ φ' : Phase F} {a : Act V F}

/-- No byte is lost on the way, and none gets past another. -/
theorem given_eq (h : Step v path size φ a φ') : φ.left ++ a.given = a.taken ++ φ'.left := by
  cases h <;> simp [Phase.left, Act.given, Act.taken]

theorem length_left_le (h : Step v path size φ a φ') (ha : a.WithinBounds)
    (hle : φ.left.length ≤ size) : φ'.left.length ≤ size := by
  cases h with
  | read => exact ha
  | written =>
      simp only [Phase.left, List.length_drop] at hle ⊢
      omega
  | _ => exact hle

/-- A read asks for a whole chunk, and nothing is left of the last one. -/
theorem of_read {f : F} {r : Except IoError (List UInt8)}
    (h : Step v path size φ (.read f n r) φ') : n = size ∧ φ.left = [] := by
  cases h <;> exact ⟨rfl, rfl⟩

theorem past (h : Step v path size φ a φ') (hp : φ.Past) : φ'.Past ∧ a.transfers = false := by
  cases h <;> first | exact hp.elim | exact ⟨trivial, rfl⟩

theorem past_of_sinkFails (h : Step v path size φ a φ') (ha : a.sinkFails) : φ'.Past := by
  cases h <;> simp_all [Act.sinkFails, Phase.Past]

end Step

/-- These acts take a copy from the first phase to the second. -/
inductive Path (v : V) (path : String) (size : Nat) :
    Phase F → List (Act V F) → Phase F → Prop where
  | refl (φ) : Path v path size φ [] φ
  | step {φ a φ₁ as φ'} : Step v path size φ a φ₁ → Path v path size φ₁ as φ' →
      Path v path size φ (a :: as) φ'

/-- What holds of a copy that reads `size` bytes at a time at the moment between two stretches of
its acts. -/
structure Paced (size : Nat) (before after : List (Act V F)) : Prop where
  in_order : taken before <+: given before
  bounded : (given before).length ≤ (taken before).length + size
  reads : ∀ f n r rest, after = .read f n r :: rest → n = size ∧ taken before = given before
  stops : (∃ a ∈ before, a.sinkFails) → ∀ a ∈ after, a.transfers = false

namespace Path

variable {v : V} {path : String} {size : Nat} {φ φ₁ φ' : Phase F} {as bs : List (Act V F)}

theorem single {a : Act V F} (h : Step v path size φ a φ') : Path v path size φ [a] φ' :=
  .step h (.refl _)

theorem trans (h : Path v path size φ as φ₁) (h' : Path v path size φ₁ bs φ') :
    Path v path size φ (as ++ bs) φ' := by
  induction h with
  | refl => exact h'
  | step hs _ ih => exact .step hs (ih h')

/-- There is a phase at every moment. -/
theorem unappend (h : Path v path size φ (as ++ bs) φ') :
    ∃ φ₁, Path v path size φ as φ₁ ∧ Path v path size φ₁ bs φ' := by
  induction as generalizing φ with
  | nil => exact ⟨φ, .refl φ, h⟩
  | cons a as ih =>
      cases h with
      | step hs h =>
          obtain ⟨φ₁, h₁, h₂⟩ := ih h
          exact ⟨φ₁, .step hs h₁, h₂⟩

theorem given_eq (h : Path v path size φ as φ') : φ.left ++ given as = taken as ++ φ'.left := by
  induction h with
  | refl => simp [given, taken]
  | @step φ a φ₁ as φ' hs _ ih =>
      calc φ.left ++ given (a :: as)
          = φ.left ++ a.given ++ given as := by
            rw [given, List.flatMap_cons, List.append_assoc]
            rfl
        _ = a.taken ++ (φ₁.left ++ given as) := by rw [hs.given_eq, List.append_assoc]
        _ = taken (a :: as) ++ φ'.left := by
            rw [ih, taken, taken, List.flatMap_cons, List.append_assoc]

theorem length_left_le (h : Path v path size φ as φ') (ha : ∀ a ∈ as, a.WithinBounds)
    (hle : φ.left.length ≤ size) : φ'.left.length ≤ size := by
  induction h with
  | refl => exact hle
  | step hs _ ih =>
      rw [List.forall_mem_cons] at ha
      exact ih ha.2 (hs.length_left_le ha.1 hle)

theorem past (h : Path v path size φ as φ') (hp : φ.Past) :
    φ'.Past ∧ ∀ a ∈ as, a.transfers = false := by
  induction h with
  | refl => exact ⟨hp, by simp⟩
  | step hs _ ih =>
      obtain ⟨hp₁, ha⟩ := hs.past hp
      exact ⟨(ih hp₁).1, List.forall_mem_cons.mpr ⟨ha, (ih hp₁).2⟩⟩

theorem past_of_sinkFails (h : Path v path size φ as φ') (ha : ∃ a ∈ as, a.sinkFails) :
    φ'.Past := by
  induction h with
  | refl => simp at ha
  | step hs h ih =>
      obtain ⟨a, hm, hf⟩ := ha
      rcases List.mem_cons.mp hm with rfl | hm
      · exact (h.past (hs.past_of_sinkFails hf)).1
      · exact ih ⟨a, hm, hf⟩

/-- The law of the pace, for every volume and sink that may give these answers. -/
theorem paced (h : Path v path size .opening (as ++ bs) φ')
    (ha : ∀ a ∈ as ++ bs, a.WithinBounds) : Paced size as bs := by
  obtain ⟨φ, h, h'⟩ := h.unappend
  have hgiven : given as = taken as ++ φ.left := h.given_eq
  have hleft : φ.left.length ≤ size :=
    h.length_left_le (fun a hm => ha a (List.mem_append_left _ hm)) (Nat.zero_le _)
  refine ⟨⟨φ.left, hgiven.symm⟩, ?_, ?_, fun hf => (h'.past (h.past_of_sinkFails hf)).2⟩
  · rw [hgiven, List.length_append]
    exact Nat.add_le_add_left hleft _
  · rintro f n r rest rfl
    cases h' with
    | step hs _ =>
        obtain ⟨hn, hnone⟩ := hs.of_read
        exact ⟨hn, by rw [hgiven, hnone, List.append_nil]⟩

end Path

end Copy

/-! ## Copies -/

open Copy

/-- Writing all of some bytes is a path that leaves none of them, or the end. -/
theorem WriteTrace.path {bytes : List UInt8} {as : List (Act V F)} {r : Except IoError Unit}
    (h : WriteTrace bytes as r) (v : V) (path : String) (size : Nat) (f : F) :
    ∃ left, Path v path size (.moving f bytes) as
      (match r with
        | .ok () => .moving f []
        | .error _ => .closing f left) := by
  induction h with
  | done => exact ⟨[], .refl _⟩
  | @refused bytes hb => exact ⟨bytes, .single (.refused hb)⟩
  | part hb _ ih =>
      obtain ⟨left, hp⟩ := ih
      exact ⟨left, .step (.written hb) hp⟩
  | again hb he _ ih =>
      obtain ⟨left, hp⟩ := ih
      exact ⟨left, .step (.rewritten hb he) hp⟩
  | @failed bytes _ hb he => exact ⟨bytes, .single (.unwritten hb he)⟩

theorem TransferTrace.path {f : F} {size copied : Nat} {as : List (Act V F)}
    {r : Except Chain Nat} (h : TransferTrace f size copied as r) (v : V) (path : String) :
    ∃ left, Path v path size (.moving f []) as (.closing f left) := by
  induction h with
  | finished | unflushed => exact ⟨[], .step .ended (.single .flushed)⟩
  | chunk hb hw _ ih =>
      obtain ⟨_, hwrite⟩ := hw.path v path size f
      obtain ⟨left, hrest⟩ := ih
      exact ⟨left, .step (.read hb) (hwrite.trans hrest)⟩
  | unwritten hb hw =>
      obtain ⟨left, hwrite⟩ := hw.path v path size f
      exact ⟨left, .step (.read hb) hwrite⟩
  | again he _ ih =>
      obtain ⟨left, hrest⟩ := ih
      exact ⟨left, .step (.reread he) hrest⟩
  | failed he => exact ⟨[], .single (.unread he)⟩

theorem LockTrace.path {f : F} {path target : String} {chunk : Nat} {as : List (Act V F)}
    {r : Except Error Nat} (h : LockTrace f path target chunk as r) (v : V) :
    ∃ left, Path v path (readSize chunk) (.locking f) as (.closing f left) := by
  cases h with
  | unlocked => exact ⟨[], .single .unlocked⟩
  | broken ht | copied ht =>
      obtain ⟨left, hp⟩ := ht.path v path
      exact ⟨left, .step .locked hp⟩

theorem CopyTrace.path {v : V} {path target : String} {chunk : Nat} {as : List (Act V F)}
    {r : Except Error Nat} (h : CopyTrace v path target chunk as r) :
    ∃ left, Path v path (readSize chunk) .opening as (.closed left) := by
  cases h with
  | unopened => exact ⟨[], .single .unopened⟩
  | closed hl | unclosed hl =>
      obtain ⟨left, hp⟩ := hl.path v
      exact ⟨left, .step .opened (hp.trans (.single .closed))⟩

/-- At every moment of a copy the sink has taken a beginning of what was read, with a chunk missing
at most, and nothing is read while anything is missing; after the sink has failed nothing is read,
written or flushed. The same holds of a copy that never ends, as far as it has got. -/
theorem Copy.copy_paced (v : V) (path target : String) (chunk : Nat) :
    (∀ (p : Provider σ V F) (w : World σ),
      ∃ as left, Acts p w as (copy p v path target chunk w).2 ∧
        (copy p v path target chunk w).2.recorded = w.recorded ++ as.map Act.entry ∧
        Path v path (max chunk 1) .opening as (.closed left) ∧
        ∀ before after, as = before ++ after →
          Paced (max chunk 1) before after ∧
          ∃ w₁, Acts p w before w₁ ∧ Acts p w₁ after (copy p v path target chunk w).2 ∧
            w₁.sink.received = w.sink.received ++ taken before) ∧
    ∀ (before after : List (Act V F)) φ,
      Path v path (max chunk 1) .opening (before ++ after) φ →
      (∀ a ∈ before ++ after, a.WithinBounds) → Paced (max chunk 1) before after := by
  refine ⟨fun p w => ?_, fun before after φ h hb => h.paced hb⟩
  obtain ⟨as, ha, ht⟩ := copy_trace p v path target chunk w
  obtain ⟨left, hp⟩ := ht.path
  refine ⟨as, left, ha, ha.recorded, hp, ?_⟩
  rintro before after rfl
  obtain ⟨w₁, h₁, h₂⟩ := ha.unappend
  exact ⟨hp.paced ha.withinBounds, w₁, h₁, h₂, h₁.received⟩

/-! ## Replays -/

/-- A write for which the answer was settled beforehand. -/
theorem Sink.write_answered {s : Sink} {bytes : List UInt8} {r : Except IoError Nat}
    {rest : List (Except IoError Nat)} (h : s.answers = r :: rest)
    (hr : ∀ n, r = .ok n → n ≤ bytes.length) :
    (s.write bytes).1 = r ∧ (s.write bytes).2.answers = rest ∧
      (s.write bytes).2.flushFailure = s.flushFailure := by
  unfold write
  rw [h]
  cases r with
  | ok n => exact ⟨congrArg _ (Nat.min_eq_left (hr n rfl)), rfl, rfl⟩
  | error e => exact ⟨rfl, rfl, rfl⟩

namespace Act

/-- Both acts ask for the same thing, whatever the answers. -/
inductive Alike : Act V F → Act V F → Prop where
  | openFile {v path r r'} : Alike (.openFile v path r) (.openFile v path r')
  | lock {f kind r r'} : Alike (.lock f kind r) (.lock f kind r')
  | read {f size r r'} : Alike (.read f size r) (.read f size r')
  | close {f r r'} : Alike (.close f r) (.close f r')
  | write {bytes r r'} : Alike (.write bytes r) (.write bytes r')
  | flush {r r'} : Alike (.flush r) (.flush r')

def written? : Act V F → Option (Except IoError Nat)
  | write _ r => some r
  | _ => none

end Act

namespace Replay

/-- A runtime that answers as it is laid down, for as long as it is. -/
def provider (V F : Type) : Provider (List (Act V F)) V F where
  connect _ as := ⟨as, .error { root := "" }, []⟩
  setOption _ _ as := ⟨as, .ok (), []⟩
  setLogging _ _ _ as := ⟨as, .ok (), []⟩
  openFile
    | _, _, .openFile _ _ r :: as => ⟨as, r, []⟩
    | _, _, as => ⟨as, .error (.simple .other), []⟩
  lock
    | _, _, .lock _ _ r :: as => ⟨as, r, []⟩
    | _, _, as => ⟨as, .ok (), []⟩
  read
    | _, size, .read _ _ (.ok bytes) :: as => ⟨as, .ok (bytes.take size), []⟩
    | _, _, .read _ _ (.error e) :: as => ⟨as, .error e, []⟩
    | _, _, as => ⟨as, .ok [], []⟩
  close
    | _, .close _ r :: as => ⟨as, r, []⟩
    | _, as => ⟨as, .ok (), []⟩
  finish _ as := ⟨as, .ok (), []⟩
  pending _ as := as.length
  length_read f size as bytes h := by
    split at h <;> cases h
    · exact List.length_take_le _ _
    · exact Nat.zero_le _
  pending_read f size as _ h := by
    split at h
    · exact Nat.lt_succ_self _
    · exact Nat.lt_succ_self _
    · exact absurd rfl h

/-- The answers of these acts are laid down in the world. -/
structure Laid (w : World (List (Act V F))) (as : List (Act V F)) : Prop where
  calls : w.state = as.filter Act.isCall
  writes : w.sink.answers = as.filterMap Act.written?
  flushes : ∀ r, .flush r ∈ as → w.sink.flushFailure = r

variable {w w' : World (List (Act V F))} {a c : Act V F} {as : List (Act V F)}

theorem Laid.reports (hl : Laid w as) (h : Acts (provider V F) w [] w') : Laid w' as := by
  generalize hn : ([] : List (Act V F)) = bs at h
  induction h with
  | refl => exact hl
  | report level message _ ih => exact ih ⟨hl.calls, hl.writes, hl.flushes⟩ hn
  | act => cases hn

/-- After a call that was answered as it is laid down, the rest is laid down. -/
theorem Laid.after_call (hl : Laid w (a :: as)) (hr : a.written? = none)
    (hstate : w'.state = as.filter Act.isCall) (hsink : w'.sink = w.sink) : Laid w' as where
  calls := hstate
  writes := by rw [hsink, hl.writes, List.filterMap_cons_none hr]
  flushes r hm := by rw [hsink, hl.flushes r (List.mem_cons_of_mem _ hm)]

/-- What is asked for is answered as it is laid down. -/
theorem Laid.does (hl : Laid w (a :: as)) (hb : a.WithinBounds) (hac : a.Alike c)
    (h : c.Does (provider V F) w w') : c = a ∧ Laid w' as := by
  have hcalls := hl.calls
  cases hac with
  | @openFile v path r r' =>
      have hp : (provider V F).openFile v path w.state = ⟨as.filter Act.isCall, r, []⟩ := by
        rw [hcalls]
        rfl
      cases h
      exact ⟨congrArg _ (congrArg Reply.result hp),
        hl.after_call rfl (congrArg Reply.state hp) rfl⟩
  | @lock f kind r r' =>
      have hp : (provider V F).lock f kind w.state = ⟨as.filter Act.isCall, r, []⟩ := by
        rw [hcalls]
        rfl
      cases h
      exact ⟨congrArg _ (congrArg Reply.result hp),
        hl.after_call rfl (congrArg Reply.state hp) rfl⟩
  | @read f size r r' =>
      have hp : (provider V F).read f size w.state = ⟨as.filter Act.isCall, r, []⟩ := by
        rw [hcalls]
        cases r with
        | ok bytes =>
            have ht : bytes.take size = bytes := List.take_of_length_le hb
            show (⟨_, .ok (bytes.take size), []⟩ : Reply _ _ _) = _
            rw [ht]
        | error e => rfl
      cases h
      exact ⟨congrArg _ (congrArg Reply.result hp),
        hl.after_call rfl (congrArg Reply.state hp) rfl⟩
  | @close f r r' =>
      have hp : (provider V F).close f w.state = ⟨as.filter Act.isCall, r, []⟩ := by
        rw [hcalls]
        rfl
      cases h
      exact ⟨congrArg _ (congrArg Reply.result hp),
        hl.after_call rfl (congrArg Reply.state hp) rfl⟩
  | @write bytes r r' =>
      obtain ⟨hr, hsink, hstate⟩ := World.write_eq h
      have hwrites : w.sink.answers = r :: as.filterMap Act.written? := hl.writes
      obtain ⟨hanswer, hrest, hflush⟩ := Sink.write_answered hwrites
        (fun n hn => by subst hn; exact hb)
      refine ⟨congrArg _ (hr.symm.trans hanswer), hstate.trans hcalls, ?_, fun x hm => ?_⟩
      · rw [hsink, hrest]
      · rw [hsink, hflush, hl.flushes x (List.mem_cons_of_mem _ hm)]
  | @flush r r' =>
      have hr : w.sink.flushFailure = r := hl.flushes r List.mem_cons_self
      cases h
      exact ⟨congrArg _ hr, hcalls, hl.writes,
        fun x hm => hl.flushes x (List.mem_cons_of_mem _ hm)⟩

end Replay

namespace Copy

variable {v : V} {path : String} {size : Nat} {φ φ₁ φ₂ φ' φ'' : Phase F} {a c : Act V F}
  {as cs : List (Act V F)}

/-- What a copy asks for next is a matter of its phase. -/
theorem Step.alike (h : Step v path size φ a φ₁) (h' : Step v path size φ c φ₂) : a.Alike c := by
  cases h <;> cases h' <;> first | constructor | contradiction

theorem Step.eq (h : Step v path size φ a φ₁) (h' : Step v path size φ a φ₂) : φ₁ = φ₂ := by
  cases h <;> cases h' <;> first | rfl | contradiction

theorem Path.exists_flush (h : Path v path size φ as φ') :
    ∃ r, ∀ r', .flush r' ∈ as → r' = r := by
  induction h with
  | refl => exact ⟨none, by simp⟩
  | @step φ a φ₁ as φ' hs h ih =>
      obtain ⟨r, hr⟩ := ih
      cases hs with
      | @flushed f r =>
          refine ⟨r, fun r' hm => ?_⟩
          rcases List.mem_cons.mp hm with hm | hm
          · cases hm
            rfl
          · exact absurd ((h.past trivial).2 _ hm) (by simp [Act.transfers])
      | _ => exact ⟨r, fun r' hm => hr r' (by simpa using hm)⟩

/-- A run to the end does at least what is laid down. -/
theorem Path.isPrefix {w w' : World (List (Act V F))} {left : List UInt8}
    (h : Path v path size φ as φ') (hb : ∀ a ∈ as, a.WithinBounds)
    (hc : Path v path size φ cs (.closed left)) (hl : Replay.Laid w as)
    (ha : Acts (Replay.provider V F) w cs w') : as <+: cs := by
  induction h generalizing cs w with
  | refl => exact List.nil_prefix
  | @step φ a φ₁ as φ' hs _ ih =>
      rw [List.forall_mem_cons] at hb
      cases hc with
      | refl => cases hs
      | @step _ c φ₂ cs _ hs' hc =>
          obtain ⟨w₁, w₂, hr, hd, ha⟩ := ha.uncons
          obtain ⟨rfl, hl'⟩ := (hl.reports hr).does hb.1 (hs.alike hs') hd
          cases hs.eq hs'
          exact List.cons_prefix_cons.mpr ⟨rfl, ih hb.2 hc hl' ha⟩

/-- Whatever volume and sink a copy meets, and though the file may never end: how far it has got is
how far a copy of some file that ends gets with some sink. -/
theorem Path.exists_acts {chunk : Nat} (h : Path v path (readSize chunk) .opening as φ)
    (hb : ∀ a ∈ as, a.WithinBounds) (target : String) :
    ∃ (p : Provider (List (Act V F)) V F) (w : World (List (Act V F))) (rest : List (Act V F)),
      Acts p w (as ++ rest) (copy p v path target chunk w).2 ∧
      CopyTrace v path target chunk (as ++ rest) (copy p v path target chunk w).1 := by
  obtain ⟨r, hr⟩ := h.exists_flush
  let w : World (List (Act V F)) := {
    state := as.filter Act.isCall
    sink := { answers := as.filterMap Act.written?, flushFailure := r } }
  have hl : Replay.Laid w as := ⟨rfl, rfl, fun r' hm => (hr r' hm).symm⟩
  obtain ⟨cs, ha, ht⟩ := copy_trace (Replay.provider V F) v path target chunk w
  obtain ⟨left, hc⟩ := ht.path
  obtain ⟨rest, rfl⟩ := h.isPrefix hb hc hl ha
  exact ⟨Replay.provider V F, w, rest, ha, ht⟩

end Copy

end LockedCat
