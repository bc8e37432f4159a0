import LockedCat.Proofs.Limits
import LockedCat.Proofs.Trace
import LockedCat.Script

/-!
# What a copy delivers

A scripted file gives a stream, however its pieces fall into reads. Main statement: a copy writes
the stream as far as the sink takes it, flushes the sink once if and only if all of it got there,
and counts it right.
-/

namespace LockedCat

variable {σ V F : Type}

/-! ## Streams -/

namespace Script

/-- The bytes before the first read that is empty or fails for good. -/
def delivered : List Piece → List UInt8
  | [] => []
  | .failure e :: rest => if e.isInterrupted then delivered rest else []
  | .data [] :: _ => []
  | .data (b :: bytes) :: rest => b :: bytes ++ delivered rest

/-- The failure that ends the stream, if it does not simply end. -/
def fault? : List Piece → Option IoError
  | [] => none
  | .failure e :: rest => if e.isInterrupted then fault? rest else some e
  | .data [] :: _ => none
  | .data (_ :: _) :: rest => fault? rest

/-- The answer to a read at the end of a stream that ends so. -/
def lastAnswer : Option IoError → Except IoError (List UInt8)
  | none => .ok []
  | some e => .error e

/-- One read of a file, in terms of its stream. -/
inductive Gives : List Piece → Except IoError (List UInt8) → List Piece → Prop where
  | stop {pieces rest} : delivered pieces = [] → fault? pieces = none → Gives pieces (.ok []) rest
  | more {pieces b bytes rest} : delivered pieces = b :: bytes ++ delivered rest →
      fault? pieces = fault? rest → Gives pieces (.ok (b :: bytes)) rest
  | again {pieces e rest} : e.isInterrupted → delivered pieces = delivered rest →
      fault? pieces = fault? rest → Gives pieces (.error e) rest
  | fail {pieces e rest} : ¬e.isInterrupted → delivered pieces = [] → fault? pieces = some e →
      Gives pieces (.error e) rest

theorem Gives.of_end {pieces rest : List Piece} {fault : Option IoError}
    (hd : delivered pieces = []) (hf : fault? pieces = fault)
    (h : ∀ e, fault = some e → ¬e.isInterrupted) : Gives pieces (lastAnswer fault) rest := by
  cases fault with
  | none => exact .stop hd hf
  | some e => exact .fail (h e rfl) hd hf

theorem take_gives {size : Nat} (hs : 0 < size) (pieces : List Piece) :
    Gives pieces (take size pieces).1 (take size pieces).2 := by
  match pieces with
  | [] => exact .stop rfl rfl
  | .failure e :: rest =>
      by_cases he : e.isInterrupted
      · exact .again he (by simp [delivered, he, take]) (by simp [fault?, he, take])
      · exact .fail he (by simp [delivered, he]) (by simp [fault?, he])
  | .data [] :: rest =>
      have ht : take size (.data [] :: rest) = (.ok [], rest) := by simp [take]
      rw [ht]
      exact .stop rfl rfl
  | .data (b :: bytes) :: rest =>
      obtain ⟨n, rfl⟩ : ∃ n, size = n + 1 := ⟨size - 1, by omega⟩
      cases hd : bytes.drop n with
      | nil =>
          have ht : take (n + 1) (.data (b :: bytes) :: rest) = (.ok (b :: bytes), rest) := by
            simp [take, hd]
          rw [ht]
          exact .more rfl rfl
      | cons b' more =>
          have ht : take (n + 1) (.data (b :: bytes) :: rest) =
              (.ok (b :: bytes.take n), .data (b' :: more) :: rest) := by
            simp [take, hd]
          have hsplit : bytes = bytes.take n ++ b' :: more := by rw [← hd, List.take_append_drop]
          rw [ht]
          refine .more ?_ rfl
          show b :: bytes ++ delivered rest = b :: bytes.take n ++ (b' :: more ++ delivered rest)
          rw [List.cons_append, List.cons_append, ← List.append_assoc, ← hsplit]

theorem left_read (s : State) (f size : Nat) :
    (s.read f size).state.left f = (take size (s.left f)).2 := by
  by_cases hf : f < s.files.length <;> simp [State.read, State.left, take, hf]

end Script

/-! ## Transfers -/

open Script in
/-- How a transfer of a stream ends when so many bytes were copied before. -/
inductive Delivers (s : Sink) (pieces : List Piece) (copied : Nat) :
    Except Chain Nat → Sink → Prop where
  | complete {s'} : fault? pieces = none → s.flushFailure = none →
      s.Took (delivered pieces) s' →
      Delivers s pieces copied (.ok (copied + (delivered pieces).length)) s'.flush.2
  | unflushed {e s'} : fault? pieces = none → s.flushFailure = some e →
      s.Took (delivered pieces) s' →
      Delivers s pieces copied (.error (e.chain.within "write error")) s'.flush.2
  | broken {e s'} : fault? pieces = some e → s.Took (delivered pieces) s' →
      Delivers s pieces copied
        (.error (e.chain.within ("read error after "
          ++ toString (copied + (delivered pieces).length) ++ " bytes"))) s'
  | cut {cap s'} : s.limit = some cap → cap < (delivered pieces).length →
      s.Took ((delivered pieces).take cap) s' →
      Delivers s pieces copied (.error (s.obstacle.chain.within "write error")) s'

namespace Delivers

open Script

variable {s s₁ s' : Sink} {pieces rest : List Piece} {copied : Nat} {r : Except Chain Nat}

/-- A chunk of the stream is written, and then what is left of it. -/
theorem chunk {bytes : List UInt8} (hd : delivered pieces = bytes ++ delivered rest)
    (hf : fault? pieces = fault? rest) (ht : s.Took bytes s₁)
    (h : Delivers s₁ rest (copied + bytes.length) r s') : Delivers s pieces copied r s' := by
  cases h with
  | complete hn hflush ht' =>
      have hlen : copied + bytes.length + (delivered rest).length =
          copied + (delivered pieces).length := by rw [hd, List.length_append, Nat.add_assoc]
      rw [hlen]
      exact .complete (hf.trans hn) (ht.flushFailure ▸ hflush) (hd ▸ ht.trans ht')
  | unflushed hn hflush ht' =>
      exact .unflushed (hf.trans hn) (ht.flushFailure ▸ hflush) (hd ▸ ht.trans ht')
  | broken he ht' =>
      have hlen : copied + bytes.length + (delivered rest).length =
          copied + (delivered pieces).length := by rw [hd, List.length_append, Nat.add_assoc]
      rw [hlen]
      exact .broken (hf.trans he) (hd ▸ ht.trans ht')
  | cut hl hlt ht' =>
      rw [ht.obstacle]
      refine .cut (ht.limit_before hl) (by rw [hd, List.length_append]; omega) ?_
      rw [hd, List.take_length_add_append]
      exact ht.trans ht'

end Delivers

theorem World.flush_eq {w w' : World σ} {failure : Option IoError}
    (h : w.flush = (failure, w')) :
    failure = w.sink.flushFailure ∧ w'.sink = w.sink.flush.2 ∧ w'.state = w.state := by
  cases h
  exact ⟨rfl, rfl, rfl⟩

/-- Through an open file a provider gives a stream, read by read. `Left` says of a state of the
provider what is left of the stream. -/
def Streams (p : Provider σ V F) (f : F) (Left : σ → List Piece → Prop) : Prop :=
  ∀ s pieces size, 0 < size → Left s pieces →
    ∃ rest, Script.Gives pieces (p.read f size s).result rest ∧ Left (p.read f size s).state rest

namespace Streams

variable {p : Provider σ V F} {f : F} {Left : σ → List Piece → Prop} {pieces : List Piece}

theorem read (hp : Streams p f Left) {w w₁ : World σ} {chunk : { n : Nat // 0 < n }}
    {r : Except IoError (List UInt8)} (hl : Left w.state pieces)
    (h : w.read p f chunk = (r, w₁)) :
    ∃ rest, Script.Gives pieces r rest ∧ Left w₁.state rest ∧ w₁.sink = w.sink := by
  obtain ⟨rest, hg, hrest⟩ := hp w.state pieces chunk chunk.2 hl
  cases h
  exact ⟨rest, hg, hrest, rfl⟩

theorem delivers (hp : Streams p f Left) (chunk : { n : Nat // 0 < n }) (copied : Nat)
    (w : World σ) (hl : Left w.state pieces) (ha : w.sink.answers = []) :
    Delivers w.sink pieces copied (Copy.transfer p f chunk copied w).1
      (Copy.transfer p f chunk copied w).2.sink := by
  -- The stream that is left shrinks with each read, the sink's limit with each write.
  fun_induction Copy.transfer p f chunk copied w generalizing pieces with
  | case1 copied w w₁ h e w₂ h₂ =>
      obtain ⟨rest, hg, -, hs⟩ := hp.read hl h
      obtain ⟨hflush, hs₂, -⟩ := World.flush_eq h₂
      cases hg with
      | stop hd hf =>
          rw [hs₂, hs]
          rw [hs] at hflush
          exact .unflushed hf hflush.symm (hd ▸ .refl ha)
  | case2 copied w w₁ h w₂ h₂ =>
      obtain ⟨rest, hg, -, hs⟩ := hp.read hl h
      obtain ⟨hflush, hs₂, -⟩ := World.flush_eq h₂
      cases hg with
      | stop hd hf =>
          have ht : w.sink.Took (Script.delivered pieces) w.sink := hd ▸ .refl ha
          have hdone : Delivers w.sink pieces copied
              (.ok (copied + (Script.delivered pieces).length)) w.sink.flush.2 :=
            .complete hf (hs ▸ hflush.symm) ht
          rw [World.debug, World.sink_report, hs₂, hs]
          simpa only [hd, List.length_nil, Nat.add_zero] using hdone
  | case3 copied w b bytes w₁ h e w₂ h₂ =>
      obtain ⟨rest, hg, -, hs⟩ := hp.read hl h
      have hw := World.writeAll_written w₁ (b :: bytes) (hs ▸ ha)
      rw [h₂, hs] at hw
      cases hg with
      | more hd hf =>
          cases hw with
          | cut hl hlt ht =>
              refine .cut hl (by rw [hd, List.length_append]; omega) ?_
              rwa [hd, List.take_append_of_le_length (Nat.le_of_lt hlt)]
  | case4 copied w b bytes w₁ h w₂ h₂ ih =>
      obtain ⟨rest, hg, hrest, hs⟩ := hp.read hl h
      have hw := World.writeAll_written w₁ (b :: bytes) (hs ▸ ha)
      have hstate : w₂.state = w₁.state := by rw [← World.state_writeAll w₁ (b :: bytes), h₂]
      rw [h₂, hs] at hw
      cases hg with
      | more hd hf =>
          cases hw with
          | all ht => exact .chunk hd hf ht (ih (hstate ▸ hrest) ht.answers)
  | case5 copied w e w₁ h he ih =>
      obtain ⟨rest, hg, hrest, hs⟩ := hp.read hl h
      cases hg with
      | again _ hd hf =>
          refine .chunk (show _ = [] ++ _ from hd) hf (.refl ha) ?_
          rw [← hs]
          exact ih hrest (hs ▸ ha)
      | fail hn => exact absurd he hn
  | case6 copied w e w₁ h he =>
      obtain ⟨rest, hg, -, hs⟩ := hp.read hl h
      cases hg with
      | again hi => exact absurd hi he
      | fail _ hd hf =>
          rw [hs]
          have ht : w.sink.Took (Script.delivered pieces) w.sink := hd ▸ .refl ha
          have hdone : Delivers w.sink pieces copied
              (.error (e.chain.within ("read error after "
                ++ toString (copied + (Script.delivered pieces).length) ++ " bytes")))
              w.sink := .broken hf ht
          simpa only [hd, List.length_nil, Nat.add_zero] using hdone

theorem left_transfer (hp : Streams p f Left) (chunk : { n : Nat // 0 < n }) (copied : Nat)
    (w : World σ) (hl : Left w.state pieces) :
    ∃ rest, Left (Copy.transfer p f chunk copied w).2.state rest := by
  fun_induction Copy.transfer p f chunk copied w generalizing pieces with
  | case1 copied w w₁ h e w₂ h₂ | case2 copied w w₁ h w₂ h₂ =>
      obtain ⟨rest, -, hrest, -⟩ := hp.read hl h
      exact ⟨rest, (World.flush_eq h₂).2.2 ▸ hrest⟩
  | case3 copied w b bytes w₁ h e w₂ h₂ =>
      obtain ⟨rest, -, hrest, -⟩ := hp.read hl h
      have hstate : w₂.state = w₁.state := by rw [← World.state_writeAll w₁ (b :: bytes), h₂]
      exact ⟨rest, hstate ▸ hrest⟩
  | case4 copied w b bytes w₁ h w₂ h₂ ih =>
      obtain ⟨rest, -, hrest, -⟩ := hp.read hl h
      have hstate : w₂.state = w₁.state := by rw [← World.state_writeAll w₁ (b :: bytes), h₂]
      exact ih (hstate ▸ hrest)
  | case5 copied w e w₁ h he ih =>
      obtain ⟨rest, -, hrest, -⟩ := hp.read hl h
      exact ih hrest
  | case6 copied w e w₁ h he =>
      obtain ⟨rest, -, hrest, -⟩ := hp.read hl h
      exact ⟨rest, hrest⟩

end Streams

theorem Script.streams (f : Nat) (script : Script) :
    Streams Script.provider f fun s pieces => s.left f = pieces ∧ s.script = script := by
  rintro s _ size hsize ⟨rfl, hs⟩
  exact ⟨_, take_gives hsize _, left_read s f size, hs⟩

theorem transfer_delivers (f : Nat) (chunk : { n : Nat // 0 < n }) (copied : Nat)
    (w : World Script.State) (ha : w.sink.answers = []) :
    Delivers w.sink (w.state.left f) copied (Copy.transfer Script.provider f chunk copied w).1
      (Copy.transfer Script.provider f chunk copied w).2.sink :=
  (Script.streams f w.state.script).delivers chunk copied w ⟨rfl, rfl⟩ ha

/-! ## Flushes -/

def Act.isFlush : Act V F → Bool
  | flush _ => true
  | _ => false

theorem Sink.flushes_write (s : Sink) (bytes : List UInt8) :
    (s.write bytes).2.flushes = s.flushes := by
  unfold write
  split
  · unfold offer
    split
    · unfold refuse
      cases s.refusal <;> rfl
    · rfl
  · rfl
  · rfl

theorem Acts.flushes {p : Provider σ V F} {w w' : World σ} {as : List (Act V F)}
    (h : Acts p w as w') : w'.sink.flushes = w.sink.flushes + as.countP Act.isFlush := by
  induction h with
  | refl => rfl
  | report level message _ ih => exact ih
  | @act w w₁ w' a as ha _ ih =>
      rw [ih, List.countP_cons]
      cases a with
      | write bytes r =>
          rw [(World.write_eq ha).2.1, Sink.flushes_write]
          rfl
      | flush r =>
          have hw := (World.flush_eq ha).2.1
          simp only [hw, Sink.flush, Act.isFlush, if_true]
          omega
      | _ =>
          cases ha
          rfl

/-- Nothing goes to the sink after a flush. -/
def FlushedLast (as : List (Act V F)) : Prop := as.Pairwise fun a b => a.isFlush → b.isCall

theorem WriteTrace.isFlush {bytes : List UInt8} {as : List (Act V F)} {r : Except IoError Unit}
    (h : WriteTrace bytes as r) : ∀ a ∈ as, a.isFlush = false := by
  induction h with
  | done => simp
  | refused | failed => simp [Act.isFlush]
  | part _ _ ih | again _ _ _ ih => simpa [Act.isFlush] using ih

theorem FlushedLast.cons {a : Act V F} {as : List (Act V F)} (ha : a.isFlush = false)
    (h : FlushedLast as) : FlushedLast (a :: as) :=
  List.pairwise_cons.mpr ⟨fun _ _ hf => by simp [ha] at hf, h⟩

theorem FlushedLast.after {as bs : List (Act V F)} (ha : ∀ a ∈ as, a.isFlush = false)
    (h : FlushedLast bs) : FlushedLast (as ++ bs) := by
  induction as with
  | nil => exact h
  | cons a as ih =>
      rw [List.forall_mem_cons] at ha
      exact .cons ha.1 (ih ha.2)

theorem FlushedLast.call {as : List (Act V F)} {a : Act V F} (ha : a.isCall) (h : FlushedLast as) :
    FlushedLast (as ++ [a]) := by
  refine List.pairwise_append.mpr ⟨h, List.pairwise_singleton _ _, ?_⟩
  intro _ _ b hb _
  rwa [List.mem_singleton.mp hb]

theorem TransferTrace.flushedLast {f : F} {size copied : Nat} {as : List (Act V F)}
    {r : Except Chain Nat} (h : TransferTrace f size copied as r) : FlushedLast as := by
  induction h with
  | finished | unflushed => exact .cons rfl (List.pairwise_singleton _ _)
  | chunk _ hw _ ih => exact .cons rfl (ih.after hw.isFlush)
  | unwritten _ hw =>
      have := FlushedLast.after hw.isFlush .nil
      rw [List.append_nil] at this
      exact .cons rfl this
  | again _ _ ih => exact .cons rfl ih
  | failed => exact List.pairwise_singleton _ _

theorem CopyTrace.flushedLast {v : V} {path target : String} {chunk : Nat} {as : List (Act V F)}
    {r : Except Error Nat} (h : CopyTrace v path target chunk as r) : FlushedLast as := by
  have hlock {f : F} {as : List (Act V F)} {r : Except Error Nat}
      (h : LockTrace f path target chunk as r) : FlushedLast as := by
    cases h with
    | unlocked => exact List.pairwise_singleton _ _
    | broken ht | copied ht => exact .cons rfl ht.flushedLast
  cases h with
  | unopened => exact List.pairwise_singleton _ _
  | closed hl | unclosed hl => exact .cons rfl ((hlock hl).call rfl)

/-! ## Copies -/

namespace World

variable {p : Provider σ V F} {w : World σ}

theorem exists_connect {url : Locator} {r : Except Chain V}
    (h : (p.connect url w.state).result = r) :
    ∃ w₁, w.connect p url = (r, w₁) ∧ w₁.sink = w.sink ∧
      w₁.state = (p.connect url w.state).state := ⟨_, Prod.ext h rfl, rfl, rfl⟩

theorem exists_setOption {v : V} {d : Directive} {r : Except Chain Unit}
    (h : (p.setOption v d w.state).result = r) :
    ∃ w₁, w.setOption p v d = (r, w₁) ∧ w₁.sink = w.sink ∧
      w₁.state = (p.setOption v d w.state).state := ⟨_, Prod.ext h rfl, rfl, rfl⟩

theorem exists_setLogging {v : V} {sink : String} {level : Level} {r : Except Chain Unit}
    (h : (p.setLogging v sink level w.state).result = r) :
    ∃ w₁, w.setLogging p v sink level = (r, w₁) ∧ w₁.sink = w.sink ∧
      w₁.state = (p.setLogging v sink level w.state).state := ⟨_, Prod.ext h rfl, rfl, rfl⟩

theorem exists_openFile {v : V} {path : String} {r : Except IoError F}
    (h : (p.openFile v path w.state).result = r) :
    ∃ w₁, w.openFile p v path = (r, w₁) ∧ w₁.sink = w.sink ∧
      w₁.state = (p.openFile v path w.state).state := ⟨_, Prod.ext h rfl, rfl, rfl⟩

theorem exists_lock {f : F} {kind : LockKind} {r : Except IoError Unit}
    (h : (p.lock f kind w.state).result = r) :
    ∃ w₁, w.lock p f kind = (r, w₁) ∧ w₁.sink = w.sink ∧
      w₁.state = (p.lock f kind w.state).state := ⟨_, Prod.ext h rfl, rfl, rfl⟩

theorem exists_close {f : F} {r : Except IoError Unit} (h : (p.close f w.state).result = r) :
    ∃ w₁, w.close p f = (r, w₁) ∧ w₁.sink = w.sink := ⟨_, Prod.ext h rfl, rfl⟩

end World

/-- A copy of a file that can be opened, locked and closed is a transfer. -/
theorem Streams.copy_eq_transfer {p : Provider σ V F} {v : V} {f : F}
    {Left : σ → List Piece → Prop} {pieces : List Piece} {path : String} {w : World σ}
    (hp : Streams p f Left) (hopen : (p.openFile v path w.state).result = .ok f)
    (hlock : (p.lock f .write (p.openFile v path w.state).state).result = .ok ())
    (hleft : Left (p.lock f .write (p.openFile v path w.state).state).state pieces)
    (hclose : ∀ s rest, Left s rest → (p.close f s).result = .ok ()) (target : String)
    (chunk : Nat) :
    ∃ w₁ : World σ, w₁.sink = w.sink ∧
      w₁.state = (p.lock f .write (p.openFile v path w.state).state).state ∧
      (Copy.copy p v path target chunk w).1 =
        (Copy.transfer p f (Copy.readSize chunk) 0 w₁).1.mapError
          (⟨.copy .transfer, target, ·⟩) ∧
      (Copy.copy p v path target chunk w).2.sink =
        (Copy.transfer p f (Copy.readSize chunk) 0 w₁).2.sink := by
  obtain ⟨w₁, ho, hsink₁, hstate₁⟩ := World.exists_openFile
    (w := w.debug ("opening " ++ Text.quoted path ++ " for reading")) hopen
  have hstate₁ : w₁.state = (p.openFile v path w.state).state := hstate₁
  rw [← hstate₁] at hlock hleft ⊢
  obtain ⟨w₂, hl, hsink₂, hstate₂⟩ := World.exists_lock hlock
  rw [← hstate₂] at hleft ⊢
  refine ⟨w₂.debug "lock acquired, copying data", hsink₂.trans hsink₁, rfl, ?_⟩
  simp only [Copy.copy, ho, Copy.lockAndTransfer, hl]
  cases ht : Copy.transfer p f (Copy.readSize chunk) 0
      (w₂.debug "lock acquired, copying data") with
  | mk result w₃ =>
      obtain ⟨rest, hrest⟩ := hp.left_transfer (Copy.readSize chunk) 0
        (w₂.debug "lock acquired, copying data") hleft
      rw [ht] at hrest
      obtain ⟨w₄, hc, hsink₄⟩ := World.exists_close
        (w := w₃.debug ("closing " ++ Text.quoted path)) (hclose _ rest hrest)
      cases result with
      | error c =>
          simp only [hc]
          exact ⟨rfl, hsink₄⟩
      | ok count =>
          simp only [hc]
          exact ⟨rfl, hsink₄⟩

namespace Script

theorem copy_eq_transfer (path target : String) (chunk : Nat) {w : World State}
    (ho : w.state.script.openFailure = none) (hl : w.state.script.lockFailure = none)
    (hc : w.state.script.closeFailure = none) :
    ∃ w₁ : World State, w₁.sink = w.sink ∧
      w₁.state.left w.state.files.length = w.state.script.pieces ∧
      (Copy.copy provider () path target chunk w).1 =
        (Copy.transfer provider w.state.files.length (Copy.readSize chunk) 0 w₁).1.mapError
          (⟨.copy .transfer, target, ·⟩) ∧
      (Copy.copy provider () path target chunk w).2.sink =
        (Copy.transfer provider w.state.files.length (Copy.readSize chunk) 0 w₁).2.sink := by
  let s : State := { w.state with files := w.state.files ++ [w.state.script.pieces] }
  have hopened : provider.openFile () path w.state = ⟨s, .ok w.state.files.length, []⟩ := by
    simp [provider, ho, s]
  have hlocked : provider.lock w.state.files.length .write s = ⟨s, .ok (), []⟩ := by
    simp [provider, reply, s, hl]
  obtain ⟨w₁, hsink, hstate, hcopy⟩ :=
    (streams w.state.files.length w.state.script).copy_eq_transfer (by rw [hopened])
      (by rw [hopened, hlocked]) (by rw [hopened, hlocked]; exact ⟨rfl, rfl⟩)
      (fun s _ h => by simp [provider, reply, h.2, hc]) target chunk
  refine ⟨w₁, hsink, ?_, hcopy⟩
  rw [hstate, hopened, hlocked]
  simp [State.left, s]

/-- A copy writes what the file delivers, up to the limit of the sink. -/
theorem copy_delivers (path target : String) (chunk : Nat) (w : World State)
    (ho : w.state.script.openFailure = none) (hl : w.state.script.lockFailure = none)
    (hc : w.state.script.closeFailure = none) (ha : w.sink.answers = []) :
    let data := delivered w.state.script.pieces
    let result := (Copy.copy provider () path target chunk w).1
    let w' := (Copy.copy provider () path target chunk w).2
    ∃ as, Acts provider w as w' ∧ as.Pairwise (fun a b => a.isFlush → b.isCall) ∧
      (w.sink.Fits data.length → fault? w.state.script.pieces = none →
        w'.sink.received = w.sink.received ++ data ∧ as.countP Act.isFlush = 1 ∧
        result = match w.sink.flushFailure with
          | none => .ok data.length
          | some e => .error ⟨.copy .transfer, target, e.chain.within "write error"⟩) ∧
      (∀ e, w.sink.Fits data.length → fault? w.state.script.pieces = some e →
        w'.sink.received = w.sink.received ++ data ∧ as.countP Act.isFlush = 0 ∧
        result = .error ⟨.copy .transfer, target,
          e.chain.within ("read error after " ++ toString data.length ++ " bytes")⟩) ∧
      ∀ cap, w.sink.limit = some cap → cap < data.length →
        w'.sink.received = w.sink.received ++ data.take cap ∧ as.countP Act.isFlush = 0 ∧
        result = .error ⟨.copy .transfer, target, w.sink.obstacle.chain.within "write error"⟩ := by
  obtain ⟨w₁, hsink, hleft, hresult, hsink'⟩ := copy_eq_transfer path target chunk ho hl hc
  have h := transfer_delivers w.state.files.length (Copy.readSize chunk) 0 w₁ (hsink ▸ ha)
  rw [hleft, hsink, ← hsink'] at h
  obtain ⟨as, hacts, htrace⟩ := copy_trace provider () path target chunk w
  have hcount := hacts.flushes
  refine ⟨as, hacts, htrace.flushedLast, ?_⟩
  simp only [hresult]
  generalize (Copy.copy provider () path target chunk w).2.sink = s' at h hcount ⊢
  generalize (Copy.transfer provider w.state.files.length (Copy.readSize chunk) 0 w₁).1 = r at h ⊢
  cases h with
  | @complete s' hn hflush ht =>
      refine ⟨fun _ _ => ⟨ht.received, ?_, ?_⟩, fun e _ he => ?_, fun cap hlimit hcap => ?_⟩
      · simp only [Sink.flush, ht.flushes] at hcount
        omega
      · rw [hflush, Nat.zero_add]
        rfl
      · simp [hn] at he
      · have := ht.fits cap hlimit
        omega
  | @unflushed e s' hn hflush ht =>
      refine ⟨fun _ _ => ⟨ht.received, ?_, ?_⟩, fun e _ he => ?_, fun cap hlimit hcap => ?_⟩
      · simp only [Sink.flush, ht.flushes] at hcount
        omega
      · rw [hflush]
        rfl
      · simp [hn] at he
      · have := ht.fits cap hlimit
        omega
  | @broken e _ he ht =>
      refine ⟨fun _ hn => ?_, fun e' _ he' => ⟨ht.received, ?_, ?_⟩, fun cap hlimit hcap => ?_⟩
      · simp [he] at hn
      · have := ht.flushes
        omega
      · rw [he, Option.some.injEq] at he'
        rw [he', Nat.zero_add]
        rfl
      · have := ht.fits cap hlimit
        omega
  | @cut cap _ hlimit hcap ht =>
      refine ⟨fun hfits _ => ?_, fun e hfits _ => ?_, fun cap' hlimit' _ => ?_⟩
      · have := hfits cap hlimit
        omega
      · have := hfits cap hlimit
        omega
      · rw [hlimit, Option.some.injEq] at hlimit'
        subst hlimit'
        have := ht.flushes
        exact ⟨ht.received, by omega, rfl⟩

/-- A stream of four bytes, read one at a time, and a sink with room for three. -/
theorem copy_delivers_cut :
    let w : World State := {
      state := { script := { pieces :=
        [.failure (.simple .interrupted), .data [1, 2, 3], .data [4], .data [], .data [5]] } }
      sink := { most := some 2, room := some 3, refusal := some (.simple .storageFull) } }
    w.state.script.openFailure = none ∧ w.state.script.lockFailure = none ∧
      w.state.script.closeFailure = none ∧ w.sink.answers = [] ∧
      (Copy.copy provider () "/f" "f" 0 w).2.sink.received = [1, 2, 3] ∧
      (Copy.copy provider () "/f" "f" 0 w).1 = .error ⟨.copy .transfer, "f",
        (IoError.simple .storageFull).chain.within "write error"⟩ := by
  intro w
  obtain ⟨as, -, -, -, -, hcut⟩ := copy_delivers "/f" "f" 0 w rfl rfl rfl rfl
  obtain ⟨hreceived, -, hresult⟩ := hcut 3 rfl (by decide)
  exact ⟨rfl, rfl, rfl, rfl, hreceived, hresult⟩

end Script

end LockedCat
