import LockedCat.Proofs.Memory

/-!
# Copies from memory

A volume in memory may be told to fail, and it counts what is done to it. Main statement: what a
copy to a sink without a limit comes to, and what it delivers, is settled by the files of the
volume, by the locks of others and by what the volume was told to fail, and the copy leaves all of
this as it was.
-/

namespace LockedCat

/-! ## Streams with a failure at their end -/

namespace Script

variable {bytes : List UInt8} {fault : Option IoError}

/-- A stream of these bytes, and then the failure if there is one. -/
def stream (bytes : List UInt8) (fault : Option IoError) : List Piece :=
  match bytes with
  | [] => fault.toList.map .failure
  | b :: rest => .data (b :: rest) :: fault.toList.map .failure

theorem delivered_stream (h : ∀ e, fault = some e → ¬e.isInterrupted) :
    delivered (stream bytes fault) = bytes := by
  have hnil : delivered (fault.toList.map .failure) = [] := by
    cases fault with
    | none => rfl
    | some e => simp [delivered, h e rfl]
  cases bytes with
  | nil => exact hnil
  | cons b rest => simp [stream, delivered, hnil]

theorem fault?_stream (h : ∀ e, fault = some e → ¬e.isInterrupted) :
    fault? (stream bytes fault) = fault := by
  have hnil : fault? (fault.toList.map .failure) = fault := by
    cases fault with
    | none => rfl
    | some e => simp [fault?, h e rfl]
  cases bytes with
  | nil => exact hnil
  | cons b rest => simpa [stream, fault?] using hnil

end Script

theorem Contents.stretch_append (c : Contents) {start middle stop : Nat} (h : start ≤ middle)
    (h' : middle ≤ stop) :
    c.stretch start middle ++ c.stretch middle stop = c.stretch start stop := by
  rw [stretch_eq, stretch_eq, stretch_eq]
  have hsplit : stop - start = (middle - start) + (stop - middle) := by omega
  have hdrop : c.toList.drop middle = (c.toList.drop start).drop (middle - start) := by
    rw [List.drop_drop]
    congr 1
    omega
  rw [hsplit, List.take_add, hdrop]

theorem Contents.stretch_eq_nil {c : Contents} {start stop : Nat} (h : stop ≤ start) :
    c.stretch start stop = [] := by
  have hlen := c.length_stretch start stop
  rw [← List.length_eq_zero_iff, hlen]
  omega

/-! ## Sinks without a limit -/

/-- The second sink is the first, one without a limit, after it took these bytes. -/
structure Sink.Gained (s : Sink) (bytes : List UInt8) (s' : Sink) : Prop where
  received : s'.received = s.received ++ bytes
  answers : s'.answers = []
  limit : s'.limit = none
  flushFailure : s'.flushFailure = s.flushFailure

namespace Sink

variable {s s₁ s' : Sink} {bytes more : List UInt8}

theorem Gained.refl (ha : s.answers = []) (hl : s.limit = none) : s.Gained [] s :=
  ⟨(List.append_nil _).symm, ha, hl, rfl⟩

theorem Gained.trans (h : s.Gained bytes s₁) (h' : s₁.Gained more s') :
    s.Gained (bytes ++ more) s' where
  received := by rw [h'.received, h.received, List.append_assoc]
  answers := h'.answers
  limit := h'.limit
  flushFailure := h'.flushFailure.trans h.flushFailure

theorem Took.gained (h : s.Took bytes s') (hl : s.limit = none) : s.Gained bytes s' :=
  ⟨h.received, h.answers, by rw [h.limit, hl]; rfl, h.flushFailure⟩

theorem Gained.flush (h : s.Gained bytes s') : s.Gained bytes s'.flush.2 :=
  ⟨h.received, h.answers, h.limit, h.flushFailure⟩

end Sink

open Script in
/-- How the transfer of a stream ends that the sink does not cut short. -/
def ending (pieces : List Piece) (copied : Nat) (flushFailure : Option IoError) :
    Except Chain Nat :=
  match fault? pieces, flushFailure with
  | some e, _ => .error (e.chain.within
      ("read error after " ++ toString (copied + (delivered pieces).length) ++ " bytes"))
  | none, some e => .error (e.chain.within "write error")
  | none, none => .ok (copied + (delivered pieces).length)

theorem Delivers.unlimited {s s' : Sink} {pieces : List Piece} {copied : Nat}
    {r : Except Chain Nat} (h : Delivers s pieces copied r s') (hl : s.limit = none) :
    r = ending pieces copied s.flushFailure ∧ s.Gained (Script.delivered pieces) s' := by
  cases h with
  | complete hn hf ht => exact ⟨by simp [ending, hn, hf], (ht.gained hl).flush⟩
  | unflushed hn hf ht => exact ⟨by simp [ending, hn, hf], (ht.gained hl).flush⟩
  | broken he ht => exact ⟨by simp [ending, he], ht.gained hl⟩
  | cut hlimit => simp [hl] at hlimit

/-- A reply without notes says what a world comes to. -/
theorem World.exists_accept {σ ε α : Type} {w : World σ} {entry : Except ε α → Entry}
    {r : Reply σ ε α} {s : σ} {answer : Except ε α} (h : r = ⟨s, answer, []⟩) :
    ∃ w', w.accept entry r = (answer, w') ∧ w'.sink = w.sink ∧ w'.state = s := by
  subst h
  exact ⟨_, rfl, rfl, rfl⟩

/-! ## Reads -/

namespace Memory

open Script

/-- How far the reads of a file come: to its end, or to where they were told to fail. -/
def readable (limit : Option Nat) (data : Contents) : Nat :=
  match limit with
  | some limit => min limit data.size
  | none => data.size

/-- What the reads of a file fail with once they came so far. At the end of the file they were told
to fail if they were told to do so there or before. -/
def fault (limit : Option Nat) (data : Contents) : Option IoError :=
  if limit.any (· ≤ data.size) then some (.errno Errno.inputOutput) else none

theorem fault_lasts (limit : Option Nat) (data : Contents) (e : IoError)
    (h : fault limit data = some e) : ¬e.isInterrupted := by
  unfold fault at h
  split at h
  · cases h
    simp [IoError.isInterrupted, IoError.kind, Errno.kind, Errno.inputOutput]
  · cases h

/-- What a copy leaves alone in a volume. -/
structure Kept (m m' : State) : Prop where
  files : m'.files = m.files
  foreignLocks : m'.foreignLocks = m.foreignLocks
  rejectedKey : m'.rejectedKey = m.rejectedKey
  failReadAfter : m'.failReadAfter = m.failReadAfter
  failClose : m'.failClose = m.failClose
  unreachable : m'.unreachable = m.unreachable
  connectedTo : m'.connectedTo = m.connectedTo
  applied : m'.applied = m.applied
  logging : m'.logging = m.logging
  finishCount : m'.finishCount = m.finishCount

namespace Kept

variable {m m₁ m' : State}

theorem refl (m : State) : Kept m m := ⟨rfl, rfl, rfl, rfl, rfl, rfl, rfl, rfl, rfl, rfl⟩

theorem trans (h : Kept m m₁) (h' : Kept m₁ m') : Kept m m' where
  files := h'.files.trans h.files
  foreignLocks := h'.foreignLocks.trans h.foreignLocks
  rejectedKey := h'.rejectedKey.trans h.rejectedKey
  failReadAfter := h'.failReadAfter.trans h.failReadAfter
  failClose := h'.failClose.trans h.failClose
  unreachable := h'.unreachable.trans h.unreachable
  connectedTo := h'.connectedTo.trans h.connectedTo
  applied := h'.applied.trans h.applied
  logging := h'.logging.trans h.logging
  finishCount := h'.finishCount.trans h.finishCount

/-- What is open and what is counted does not matter. -/
theorem counts (m : State) (handles : List (Option Handle)) (locksTaken : List LockKind)
    (openHandles closeCount readCalls mostAsked : Nat) :
    Kept m { m with
      handles := handles, locksTaken := locksTaken, openHandles := openHandles
      closeCount := closeCount, readCalls := readCalls, mostAsked := mostAsked } :=
  ⟨rfl, rfl, rfl, rfl, rfl, rfl, rfl, rfl, rfl, rfl⟩

theorem isFinished (h : Kept m m') : m'.isFinished = m.isFinished := by
  rw [State.isFinished, State.isFinished, h.finishCount]

theorem contents? (h : Kept m m') (path : String) : m'.contents? path = m.contents? path := by
  rw [State.contents?, State.contents?, h.files]

end Kept

/-- One more file is open than before. -/
structure Opened (m : State) (f : Nat) (x : Handle) (m' : State) : Prop where
  kept : Kept m m'
  openHandles : m'.openHandles = m.openHandles + 1
  handle : m'.handle? f = some x

/-- One more file is open than before, under its lock, and it was read so far. -/
structure Reading (m : State) (f : Nat) (path : String) (data : Contents) (position : Nat)
    (m' : State) : Prop extends Opened m f (lockedAt path data position) m' where
  within : position ≤ readable m.failReadAfter data

/-- A read stops where it was asked to, or where nothing is readable any more. -/
theorem Handle.stop_eq (h : Handle) (limit : Option Nat) (size : Nat) :
    h.stop limit size = min (h.position + size) (readable limit h.contents) := by
  unfold Handle.stop readable
  cases limit with
  | none => rfl
  | some limit => simp only; omega

/-- A read under the lock gives what was asked for as far as it is readable, or it fails. -/
theorem read_lockedAt (path : String) (data : Contents) (position : Nat) (limit : Option Nat)
    (size : Nat) :
    (lockedAt path data position).read limit size =
      if limit.any (· ≤ position) then
        (.error (.errno Errno.inputOutput), lockedAt path data position)
      else
        (.ok (data.stretch position (min (position + size) (readable limit data))),
          lockedAt path data (min (position + size) (readable limit data))) := by
  rw [Handle.read, Handle.stop_eq]
  rfl

theorem read_locked {m : State} {f position : Nat} {path : String} {data : Contents}
    (hh : m.handle? f = some (lockedAt path data position)) (size : Nat) :
    provider.read f size m =
      if m.failReadAfter.any (· ≤ position) then
        ⟨(m.count size).setHandle f (some (lockedAt path data position)),
          .error (.errno Errno.inputOutput), []⟩
      else
        ⟨(m.count size).setHandle f (some (lockedAt path data
            (min (position + size) (readable m.failReadAfter data)))),
          .ok (data.stretch position (min (position + size) (readable m.failReadAfter data))),
          []⟩ := by
  simp only [provider, State.read, hh, read_lockedAt]
  split <;> rfl

theorem Reading.advance {m m' : State} {f position : Nat} {path : String} {data : Contents}
    (h : Reading m f path data position m') (size : Nat) {stop : Nat}
    (hstop : stop ≤ readable m.failReadAfter data) :
    Reading m f path data stop ((m'.count size).setHandle f (some (lockedAt path data stop))) where
  kept := h.kept.trans (.counts ..)
  openHandles := h.openHandles
  handle := by
    have hcount : (m'.count size).handle? f = some (lockedAt path data position) := h.handle
    exact State.handle?_setHandle_self hcount
  within := hstop

/-- Where reads were told to fail, nothing is readable any more. -/
theorem readable_le_of_limit {limit : Option Nat} {data : Contents} {position : Nat}
    (h : limit.any (· ≤ position)) (hp : position ≤ readable limit data) :
    readable limit data ≤ position ∧ fault limit data = some (.errno Errno.inputOutput) := by
  cases limit with
  | none => cases h
  | some limit =>
      have h : limit ≤ position := by simpa using h
      simp only [readable] at hp ⊢
      have hsize : limit ≤ data.size := by omega
      exact ⟨by omega, by simp [fault, hsize]⟩

theorem fault_eq_none {limit : Option Nat} {data : Contents} {position : Nat}
    (h : ¬limit.any (· ≤ position)) (hp : readable limit data ≤ position) :
    fault limit data = none := by
  cases limit with
  | none => rfl
  | some limit =>
      have h : position < limit := by simpa using h
      simp only [readable] at hp
      have hsize : ¬limit ≤ data.size := by omega
      simp [fault, hsize]

theorem readable_le (limit : Option Nat) (data : Contents) : readable limit data ≤ data.size := by
  unfold readable
  split <;> omega

namespace Reading

variable {m m' : State} {f position : Nat} {path : String} {data : Contents}

/-- Where nothing is readable any more, a read finds the end of the file or fails as it was told. -/
theorem read_end (h : Reading m f path data position m') (size : Nat)
    (hend : readable m.failReadAfter data ≤ position) :
    (provider.read f size m').result = lastAnswer (fault m.failReadAfter data) ∧
      Reading m f path data position (provider.read f size m').state := by
  rw [read_locked h.handle, h.kept.failReadAfter]
  by_cases hlimit : m.failReadAfter.any (· ≤ position)
  · obtain ⟨-, hfault⟩ := readable_le_of_limit hlimit h.within
    rw [if_pos hlimit, hfault]
    exact ⟨rfl, h.advance size h.within⟩
  · have hstop : min (position + size) (readable m.failReadAfter data) = position := by
      have := h.within
      omega
    rw [if_neg hlimit, hstop, fault_eq_none hlimit hend, Contents.stretch_eq_nil (Nat.le_refl _)]
    exact ⟨rfl, h.advance size h.within⟩

/-- Before that, a read gives what it asks for as far as it is readable. -/
theorem read_on (h : Reading m f path data position m') (size : Nat)
    (hlt : position < readable m.failReadAfter data) :
    (provider.read f size m').result =
        .ok (data.stretch position (min (position + size) (readable m.failReadAfter data))) ∧
      Reading m f path data (min (position + size) (readable m.failReadAfter data))
        (provider.read f size m').state := by
  have hlimit : ¬m.failReadAfter.any (· ≤ position) := by
    intro hlimit
    have := (readable_le_of_limit hlimit h.within).1
    omega
  rw [read_locked h.handle, h.kept.failReadAfter, if_neg hlimit]
  exact ⟨rfl, h.advance size (Nat.min_le_right _ _)⟩

/-- What a read gives there is something, if it asks for anything. -/
theorem stretch_ne_nil {size : Nat} (hs : 0 < size) {limit : Option Nat}
    (hlt : position < readable limit data) :
    data.stretch position (min (position + size) (readable limit data)) ≠ [] := by
  have hlen := data.length_stretch position (min (position + size) (readable limit data))
  have := readable_le limit data
  rw [← List.length_pos_iff, hlen]
  omega

end Reading

/-- An open file under its lock is the stream of what is readable in it. -/
theorem streams (m : State) (f : Nat) (path : String) (data : Contents) :
    Streams provider f fun m' pieces => ∃ position, Reading m f path data position m' ∧
      pieces = stream (data.stretch position (readable m.failReadAfter data))
        (fault m.failReadAfter data) := by
  rintro m' _ size hsize ⟨position, h, rfl⟩
  have hlasts := fault_lasts m.failReadAfter data
  rcases Nat.lt_or_ge position (readable m.failReadAfter data) with hlt | hend
  · obtain ⟨hresult, hreading⟩ := h.read_on size hlt
    have hne := Reading.stretch_ne_nil hsize hlt
    refine ⟨_, ?_, _, hreading, rfl⟩
    rw [hresult]
    cases hb : data.stretch position (min (position + size) (readable m.failReadAfter data)) with
    | nil => exact absurd hb hne
    | cons b bytes =>
        refine .more ?_ ?_
        · rw [delivered_stream hlasts, delivered_stream hlasts, ← hb,
            Contents.stretch_append data (by omega) (Nat.min_le_right _ _)]
        · rw [fault?_stream hlasts, fault?_stream hlasts]
  · obtain ⟨hresult, hreading⟩ := h.read_end size hend
    refine ⟨_, ?_, position, hreading, rfl⟩
    rw [hresult]
    refine .of_end ?_ (fault?_stream hlasts) hlasts
    rw [delivered_stream hlasts, Contents.stretch_eq_nil hend]

/-! ## Copies -/

theorem openFile_opened {m : State} (hf : m.isFinished = false) {path : String} {data : Contents}
    (hd : m.contents? path = some data) :
    ∃ m', provider.openFile () path m = ⟨m', .ok m.handles.length, []⟩ ∧
      Opened m m.handles.length { path := path, contents := data } m' := by
  refine ⟨{ m with
    openHandles := m.openHandles + 1
    handles := m.handles ++ [some { path := path, contents := data }] }, ?_,
    .counts .., rfl, ?_⟩
  · simp [provider, State.openFile, hf, hd]
  · simp [State.handle?]

namespace Opened

variable {m m' : State} {f : Nat} {x : Handle}

theorem lock_refused (h : Opened m f x m') (hl : x.path ∈ m.foreignLocks) :
    ∃ m₁, provider.lock f .write m' = ⟨m₁, .error (.errno Errno.wouldBlock), []⟩ ∧
      Opened m f x m₁ := by
  refine ⟨{ m' with locksTaken := m'.locksTaken ++ [LockKind.write] }, ?_, ?_⟩
  · simp only [provider, State.lock, h.handle, h.kept.foreignLocks, hl, if_true]
  · exact ⟨h.kept.trans (.counts ..), h.openHandles, h.handle⟩

theorem lock_granted (h : Opened m f x m') (hl : x.path ∉ m.foreignLocks) :
    ∃ m₁, provider.lock f .write m' = ⟨m₁, .ok (), []⟩ ∧
      Opened m f { x with locked := true } m₁ := by
  refine ⟨State.setHandle { m' with locksTaken := m'.locksTaken ++ [LockKind.write] } f
    (some { x with locked := true }), ?_, ?_⟩
  · simp only [provider, State.lock, h.handle, h.kept.foreignLocks, hl, if_false]
  · exact ⟨h.kept.trans (.counts ..), h.openHandles, State.handle?_setHandle_self h.handle⟩

/-- A close that fails has closed the file all the same. -/
theorem close (h : Opened m f x m') :
    ∃ m₁, provider.close f m' = ⟨m₁,
        if m.failClose then .error (.errno Errno.inputOutput) else .ok (), []⟩ ∧
      Kept m m₁ ∧ m₁.openHandles = m.openHandles := by
  refine ⟨{ m'.setHandle f none with
    openHandles := m'.openHandles - 1
    closeCount := m'.closeCount + 1 }, ?_, ?_, ?_⟩
  · simp only [provider, State.close, h.handle, h.kept.failClose]
  · exact h.kept.trans (.counts ..)
  · show m'.openHandles - 1 = m.openHandles
    rw [h.openHandles, Nat.add_sub_cancel]

end Opened

/-- What the close makes of a result. -/
def afterClose (m : State) (path target : String) (r : Except Error Nat) : Except Error Nat :=
  if m.failClose then .error ⟨.copy .closing, target,
    (IoError.errno Errno.inputOutput).chain.within (Copy.closeContext path r)⟩
  else r

/-- What is done with an open file comes to, and what that delivers. -/
def underLock (m : State) (path target : String) (data : Contents)
    (flushFailure : Option IoError) : Except Error Nat × List UInt8 :=
  if path ∈ m.foreignLocks then
    (.error ⟨.copy .locking, target,
      (IoError.errno Errno.wouldBlock).chain.within ("cannot lock " ++ path)⟩, [])
  else
    let bytes := data.stretch 0 (readable m.failReadAfter data)
    ((ending (stream bytes (fault m.failReadAfter data)) 0 flushFailure).mapError
      (⟨.copy .transfer, target, ·⟩), bytes)

/-- What a copy to a sink without a limit comes to, and what it delivers. -/
def outcome (m : State) (path target : String) (flushFailure : Option IoError) :
    Except Error Nat × List UInt8 :=
  let unopened (e : IoError) : Except Error Nat × List UInt8 :=
    (.error ⟨.copy .opening, target, e.chain.within ("cannot open " ++ path ++ " for reading")⟩, [])
  if m.isFinished then unopened (.errno Errno.notConnected)
  else
    match m.contents? path with
    | none => unopened (.errno Errno.notFound)
    | some data =>
        let (r, bytes) := underLock m path target data flushFailure
        (afterClose m path target r, bytes)

/-- Such an outcome depends on nothing that a copy changes. -/
theorem Kept.outcome {m m' : State} (h : Kept m m') (path target : String)
    (flushFailure : Option IoError) :
    outcome m' path target flushFailure = outcome m path target flushFailure := by
  unfold Memory.outcome underLock afterClose
  simp only [h.isFinished, h.contents?, h.foreignLocks, h.failReadAfter, h.failClose]

/-- A copy came to this, and what is kept was kept. -/
structure CameTo (w : World State) (o : Except Error Nat × List UInt8)
    (r : Except Error Nat × World State) : Prop where
  result : r.1 = o.1
  sink : w.sink.Gained o.2 r.2.sink
  kept : Kept w.state r.2.state
  openHandles : r.2.state.openHandles = w.state.openHandles

theorem transfer_cameTo {m : State} {f : Nat} {path : String} {data : Contents}
    {w : World State} (h : Reading m f path data 0 w.state) (chunk : { n : Nat // 0 < n })
    (ha : w.sink.answers = []) (hl : w.sink.limit = none) :
    (Copy.transfer provider f chunk 0 w).1 =
        ending (stream (data.stretch 0 (readable m.failReadAfter data))
          (fault m.failReadAfter data)) 0 w.sink.flushFailure ∧
      w.sink.Gained (data.stretch 0 (readable m.failReadAfter data))
        (Copy.transfer provider f chunk 0 w).2.sink ∧
      ∃ position, Reading m f path data position (Copy.transfer provider f chunk 0 w).2.state := by
  have hstreams := streams m f path data
  have hdelivers := hstreams.delivers chunk 0 w ⟨0, h, rfl⟩ ha
  obtain ⟨hresult, hgained⟩ := hdelivers.unlimited hl
  rw [delivered_stream (fault_lasts _ _)] at hgained
  obtain ⟨rest, position, hr, -⟩ := hstreams.left_transfer chunk 0 w ⟨0, h, rfl⟩
  exact ⟨hresult, hgained, position, hr⟩

/-- A file that was opened is closed, and that settles what a copy comes to. -/
theorem opened_cameTo {path target : String} {chunk : Nat} {w w₁ w₂ : World State} {f : Nat}
    {x : Handle} {bytes : List UInt8} {r : Except Error Nat}
    (hopen : (w.debug ("opening " ++ Text.quoted path ++ " for reading")).openFile provider () path
      = (.ok f, w₁))
    (hrun : Copy.lockAndTransfer provider f path target chunk w₁ = (r, w₂))
    (hx : Opened w.state f x w₂.state) (hs : w.sink.Gained bytes w₂.sink) :
    CameTo w (afterClose w.state path target r, bytes)
      (Copy.copy provider () path target chunk w) := by
  obtain ⟨m₁, hclose, hkept, hcount⟩ := hx.close
  obtain ⟨w₃, hc, hsink, hstate⟩ : ∃ w₃,
      (w₂.debug ("closing " ++ Text.quoted path)).close provider f
      = (if w.state.failClose then .error (.errno Errno.inputOutput) else .ok (), w₃) ∧
      w₃.sink = w₂.sink ∧ w₃.state = m₁ :=
    World.exists_accept hclose
  rw [← hstate] at hkept hcount
  rw [← hsink] at hs
  simp only [Copy.copy, hopen, hrun, hc, afterClose]
  cases w.state.failClose
  · exact ⟨rfl, hs, hkept, hcount⟩
  · exact ⟨rfl, hs, hkept, hcount⟩

theorem unopened_cameTo {path target : String} {chunk : Nat} {w : World State} {e : IoError}
    (h : provider.openFile () path w.state = ⟨w.state, .error e, []⟩) (ha : w.sink.answers = [])
    (hl : w.sink.limit = none) :
    CameTo w (.error ⟨.copy .opening, target,
        e.chain.within ("cannot open " ++ path ++ " for reading")⟩, [])
      (Copy.copy provider () path target chunk w) := by
  obtain ⟨w₁, ho, hsink, hstate⟩ : ∃ w₁,
      (w.debug ("opening " ++ Text.quoted path ++ " for reading")).openFile provider () path
        = (.error e, w₁) ∧ w₁.sink = w.sink ∧ w₁.state = w.state :=
    World.exists_accept h
  simp only [Copy.copy, ho]
  refine ⟨rfl, ?_, hstate ▸ .refl _, congrArg State.openHandles hstate⟩
  rw [hsink]
  exact .refl ha hl

theorem lockAndTransfer_cameTo {m : State} {f : Nat} {path : String} {data : Contents}
    {w : World State} (hx : Opened m f { path := path, contents := data } w.state)
    (ha : w.sink.answers = []) (hl : w.sink.limit = none) (target : String) (chunk : Nat) :
    ∃ x w', Copy.lockAndTransfer provider f path target chunk w =
        ((underLock m path target data w.sink.flushFailure).1, w') ∧
      Opened m f x w'.state ∧
      w.sink.Gained (underLock m path target data w.sink.flushFailure).2 w'.sink := by
  unfold underLock
  by_cases hforeign : path ∈ m.foreignLocks
  · obtain ⟨m₁, hlock, hx₁⟩ := hx.lock_refused hforeign
    obtain ⟨w₁, hl₁, hsink₁, hstate₁⟩ : ∃ w₁, w.lock provider f .write =
        (.error (.errno Errno.wouldBlock), w₁) ∧ w₁.sink = w.sink ∧ w₁.state = m₁ :=
      World.exists_accept hlock
    rw [if_pos hforeign]
    refine ⟨_, w₁, ?_, hstate₁ ▸ hx₁, ?_⟩
    · simp only [Copy.lockAndTransfer, hl₁]
    · rw [hsink₁]
      exact .refl ha hl
  · obtain ⟨m₁, hlock, hx₁⟩ := hx.lock_granted hforeign
    obtain ⟨w₁, hl₁, hsink₁, hstate₁⟩ : ∃ w₁, w.lock provider f .write = (.ok (), w₁) ∧
        w₁.sink = w.sink ∧ w₁.state = m₁ :=
      World.exists_accept hlock
    rw [if_neg hforeign]
    have hreading : Reading m f path data 0 (w₁.debug "lock acquired, copying data").state :=
      ⟨hstate₁ ▸ hx₁, Nat.zero_le _⟩
    have hsink : (w₁.debug "lock acquired, copying data").sink = w.sink := hsink₁
    obtain ⟨hresult, hgained, position, hr⟩ := transfer_cameTo hreading (Copy.readSize chunk)
      (hsink ▸ ha) (hsink ▸ hl)
    rw [hsink] at hresult hgained
    cases ht : Copy.transfer provider f (Copy.readSize chunk) 0
        (w₁.debug "lock acquired, copying data") with
    | mk result w₂ =>
        rw [ht] at hresult hgained hr
        refine ⟨_, w₂, ?_, hr.toOpened, hgained⟩
        simp only [Copy.lockAndTransfer, hl₁, ht, ← hresult]
        cases result <;> rfl

/-- A copy to a sink without a limit comes to what the volume was told. -/
theorem copy_cameTo (path target : String) (chunk : Nat) (w : World State)
    (ha : w.sink.answers = []) (hl : w.sink.limit = none) :
    CameTo w (outcome w.state path target w.sink.flushFailure)
      (Copy.copy provider () path target chunk w) := by
  unfold outcome
  cases hf : w.state.isFinished with
  | true => exact unopened_cameTo (by simp [provider, State.openFile, hf]) ha hl
  | false =>
      simp only [Bool.false_eq_true, if_false]
      cases hd : w.state.contents? path with
      | none => exact unopened_cameTo (by simp [provider, State.openFile, hf, hd]) ha hl
      | some data =>
          obtain ⟨m₁, hopen, hx⟩ := openFile_opened hf hd
          obtain ⟨w₁, ho, hsink, hstate⟩ : ∃ w₁,
              (w.debug ("opening " ++ Text.quoted path ++ " for reading")).openFile provider () path
                = (.ok w.state.handles.length, w₁) ∧ w₁.sink = w.sink ∧ w₁.state = m₁ :=
            World.exists_accept hopen
          rw [← hstate] at hx
          obtain ⟨x, w₂, hrun, hx₂, hgained⟩ := lockAndTransfer_cameTo hx (hsink ▸ ha)
            (hsink ▸ hl) target chunk
          rw [hsink] at hrun hgained
          exact opened_cameTo ho hrun hx₂ hgained

end Memory

end LockedCat
