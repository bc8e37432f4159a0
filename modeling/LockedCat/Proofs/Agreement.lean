import LockedCat.Contents
import LockedCat.Proofs.Delivery
import LockedCat.Proofs.Verdict

/-!
# Providers that agree

A command sees of a storage runtime only its answers. Main statement: two runtimes that grant the
same file to a command give it the same end and the sink the same bytes, however differently they
keep their files.
-/

namespace LockedCat

variable {σ τ V U F G : Type}

/-! ## Steady files -/

namespace Script

theorem gives_data {most : Nat} (h : 0 < most) (bytes : List UInt8) :
    Gives [.data bytes] (.ok (bytes.take most)) [.data (bytes.drop most)] := by
  obtain ⟨n, rfl⟩ : ∃ n, most = n + 1 := ⟨most - 1, by omega⟩
  have hdelivered (bytes : List UInt8) : delivered [.data bytes] = bytes := by
    cases bytes <;> simp [delivered]
  have hfault (bytes : List UInt8) : fault? [.data bytes] = none := by
    cases bytes <;> rfl
  cases bytes with
  | nil => exact .stop rfl rfl
  | cons b bytes =>
      refine .more ?_ ?_
      · rw [hdelivered, hdelivered, ← List.take_succ_cons, List.take_append_drop]
      · rw [hfault, hfault]

end Script

/-- Reads of up to `n` bytes and reads of up to `n'` bytes give the same of `data`. -/
def SameReads (data : Contents) (n n' : Nat) : Prop :=
  ∀ position, data.stretch position (position + n) = data.stretch position (position + n')

theorem SameReads.of_eq {n n' : Nat} (h : n = n') (data : Contents) : SameReads data n n' :=
  fun _ => by rw [h]

/-- A limit that `data` keeps to changes no read. -/
theorem SameReads.of_size_le {data : Contents} {limit : Nat} (h : data.size ≤ limit) (n : Nat) :
    SameReads data (min n limit) n := by
  intro position
  rw [← Contents.stretch_min_size, ← Contents.stretch_min_size data position (position + n)]
  rcases Nat.le_total n limit with hn | hn
  · rw [Nat.min_eq_left hn]
  · rw [Nat.min_eq_right hn, Nat.min_eq_right (by omega), Nat.min_eq_right (by omega)]

/-- Through an open file a provider gives `data` in order, and with each read as much of it as
`most` says. `Reached` says of a state of the provider how far the reads have come. -/
structure Steady (p : Provider σ V F) (f : F) (data : Contents) (most : Nat → Nat)
    (Reached : Nat → σ → Prop) : Prop where
  most_pos : ∀ size, 0 < size → 0 < most size
  result : ∀ position size s, Reached position s →
    (p.read f size s).result = .ok (data.stretch position (position + most size))
  advance : ∀ position size s, Reached position s →
    Reached (position + (data.stretch position (position + most size)).length)
      (p.read f size s).state

namespace Steady

variable {p : Provider σ V F} {q : Provider τ U G} {f : F} {g : G} {data : Contents}
  {most most' : Nat → Nat} {Reached : Nat → σ → Prop} {Reached' : Nat → τ → Prop}
  {position : Nat}

theorem read (hp : Steady p f data most Reached) {w : World σ}
    (hr : Reached position w.state) (size : Nat) :
    ∃ w₁, w.read p f size = (.ok (data.stretch position (position + most size)), w₁) ∧
      Reached (position + (data.stretch position (position + most size)).length) w₁.state ∧
      w₁.sink = w.sink :=
  ⟨_, Prod.ext (hp.result position size w.state hr) rfl, hp.advance position size w.state hr, rfl⟩

/-- What is left of a steady file is a stream of one piece. -/
theorem streams (hp : Steady p f data most Reached) :
    Streams p f fun s pieces => ∃ position, Reached position s ∧
      pieces = [.data (data.toList.drop position)] := by
  rintro s _ size hsize ⟨position, hr, rfl⟩
  have hgives := Script.gives_data (hp.most_pos size hsize) (data.toList.drop position)
  refine ⟨_, ?_, _, hp.advance position size s hr, rfl⟩
  have hdrop (k : Nat) (bytes : List UInt8) : bytes.drop (bytes.take k).length = bytes.drop k := by
    rcases Nat.le_total k bytes.length with hk | hk
    · rw [List.length_take_of_le hk]
    · rw [List.take_of_length_le hk, List.drop_length, List.drop_of_length_le hk]
  rw [hp.result position size s hr, Contents.stretch_eq, Nat.add_sub_cancel_left,
    ← List.drop_drop, hdrop]
  exact hgives

end Steady

theorem World.writeAll_eq (w : World σ) (bytes : List UInt8) :
    w.writeAll bytes =
      if bytes.isEmpty then (.ok (), w)
      else
        match w.write bytes with
        | (.ok 0, w') => (.error (.simple .writeZero), w')
        | (.ok (n + 1), w') => w'.writeAll (bytes.drop (n + 1))
        | (.error e, w') => if e.isInterrupted then w'.writeAll bytes else (.error e, w') := by
  rw [writeAll]
  split
  · rfl
  · split <;> rename_i h <;> simp only [h]

/-! ## Worlds with one sink -/

namespace World

variable {w w₁ : World σ} {w' : World τ} {bytes : List UInt8}

theorem write_congr {r : Except IoError Nat} (hs : w.sink = w'.sink)
    (h : w.write bytes = (r, w₁)) : ∃ w₂, w'.write bytes = (r, w₂) ∧ w₁.sink = w₂.sink := by
  refine ⟨(w'.write bytes).2, Prod.ext ?_ rfl, ?_⟩
  · rw [fst_write, ← hs, ← fst_write, h]
  · rw [sink_write, ← hs, ← sink_write, h]

theorem flush_congr {failure : Option IoError} (hs : w.sink = w'.sink)
    (h : w.flush = (failure, w₁)) : ∃ w₂, w'.flush = (failure, w₂) ∧ w₁.sink = w₂.sink := by
  cases h
  exact ⟨w'.flush.2, Prod.ext (congrArg Sink.flushFailure hs).symm rfl,
    congrArg (fun sink => sink.flush.2) hs⟩

/-- What becomes of bytes that are written depends on the sink alone. -/
theorem writeAll_congr (w : World σ) (w' : World τ) (bytes : List UInt8) (hs : w.sink = w'.sink) :
    (w.writeAll bytes).1 = (w'.writeAll bytes).1 ∧
      (w.writeAll bytes).2.sink = (w'.writeAll bytes).2.sink := by
  fun_induction World.writeAll w bytes generalizing w' with
  | case1 w bytes hb =>
      rw [writeAll_eq, if_pos hb]
      exact ⟨rfl, hs⟩
  | case2 w bytes hb w₁ h =>
      obtain ⟨w₂, h', hs'⟩ := write_congr hs h
      rw [writeAll_eq, if_neg hb, h']
      exact ⟨rfl, hs'⟩
  | case3 w bytes hb n w₁ h ih =>
      obtain ⟨w₂, h', hs'⟩ := write_congr hs h
      rw [writeAll_eq w', if_neg hb, h']
      exact ih w₂ hs'
  | case4 w bytes hb e w₁ h he ih =>
      obtain ⟨w₂, h', hs'⟩ := write_congr hs h
      rw [writeAll_eq w', if_neg hb, h']
      simp only [he, if_true]
      exact ih w₂ hs'
  | case5 w bytes hb e w₁ h he =>
      obtain ⟨w₂, h', hs'⟩ := write_congr hs h
      rw [writeAll_eq w', if_neg hb, h']
      simp only [he, Bool.false_eq_true, if_false]
      exact ⟨trivial, hs'⟩

end World

namespace Steady

variable {p : Provider σ V F} {q : Provider τ U G} {f : F} {g : G} {data : Contents}
  {most most' : Nat → Nat} {Reached : Nat → σ → Prop} {Reached' : Nat → τ → Prop}
  {position : Nat}

/-- Two files that give the same with each read are copied in step. -/
theorem transfer_congr (hp : Steady p f data most Reached) (hq : Steady q g data most' Reached')
    {chunk : { n : Nat // 0 < n }} (hmost : SameReads data (most chunk) (most' chunk))
    (copied : Nat) {w : World σ} {w' : World τ} (hr : Reached position w.state)
    (hr' : Reached' position w'.state) (hs : w.sink = w'.sink) :
    (Copy.transfer p f chunk copied w).1 = (Copy.transfer q g chunk copied w').1 ∧
      (Copy.transfer p f chunk copied w).2.sink = (Copy.transfer q g chunk copied w').2.sink := by
  have hread {position : Nat} {w w₁ : World σ} {w' : World τ} {r : Except IoError (List UInt8)}
      (hr : Reached position w.state) (hr' : Reached' position w'.state) (hs : w.sink = w'.sink)
      (h : w.read p f chunk = (r, w₁)) :
      ∃ bytes w₂, r = .ok bytes ∧ w'.read q g chunk = (.ok bytes, w₂) ∧
        Reached (position + bytes.length) w₁.state ∧
        Reached' (position + bytes.length) w₂.state ∧ w₁.sink = w₂.sink := by
    obtain ⟨w₃, h₃, hr₃, hs₃⟩ := hp.read hr chunk
    obtain ⟨w₂, h₂, hr₂, hs₂⟩ := hq.read hr' chunk
    rw [h, Prod.mk.injEq] at h₃
    rw [← hmost] at h₂ hr₂
    obtain ⟨rfl, rfl⟩ := h₃
    exact ⟨_, w₂, rfl, h₂, hr₃, hr₂, by rw [hs₃, hs, hs₂]⟩
  fun_induction Copy.transfer p f chunk copied w generalizing w' position with
  | case1 copied w w₁ h e w₂ hf =>
      obtain ⟨_, w₁', hbytes, h', -, -, hs₁⟩ := hread hr hr' hs h
      cases hbytes
      obtain ⟨w₂', hf', hs₂⟩ := World.flush_congr hs₁ hf
      rw [Copy.transfer_eq, h']
      simp only [hf']
      exact ⟨trivial, hs₂⟩
  | case2 copied w w₁ h w₂ hf =>
      obtain ⟨_, w₁', hbytes, h', -, -, hs₁⟩ := hread hr hr' hs h
      cases hbytes
      obtain ⟨w₂', hf', hs₂⟩ := World.flush_congr hs₁ hf
      rw [Copy.transfer_eq, h']
      simp only [hf']
      exact ⟨trivial, hs₂⟩
  | case3 copied w b bytes w₁ h e w₂ hw =>
      obtain ⟨_, w₁', hbytes, h', -, -, hs₁⟩ := hread hr hr' hs h
      cases hbytes
      obtain ⟨hresult, hs₂⟩ := World.writeAll_congr w₁ w₁' (b :: bytes) hs₁
      rw [hw] at hresult hs₂
      rw [Copy.transfer_eq, h']
      cases hw' : w₁'.writeAll (b :: bytes) with
      | mk result w₂' =>
          rw [hw'] at hresult hs₂
          cases hresult
          simp only [hw']
          exact ⟨trivial, hs₂⟩
  | case4 copied w b bytes w₁ h w₂ hw ih =>
      obtain ⟨_, w₁', hbytes, h', hr₁, hr₁', hs₁⟩ := hread hr hr' hs h
      cases hbytes
      obtain ⟨hresult, hs₂⟩ := World.writeAll_congr w₁ w₁' (b :: bytes) hs₁
      have hstate : w₂.state = w₁.state := by rw [← World.state_writeAll w₁ (b :: bytes), hw]
      rw [hw] at hresult hs₂
      rw [Copy.transfer_eq q, h']
      cases hw' : w₁'.writeAll (b :: bytes) with
      | mk result w₂' =>
          have hstate' : w₂'.state = w₁'.state := by
            rw [← World.state_writeAll w₁' (b :: bytes), hw']
          rw [hw'] at hresult hs₂
          cases hresult
          simp only [hw']
          exact ih (hstate ▸ hr₁) (hstate' ▸ hr₁') hs₂
  | case5 copied w e w₁ h he ih =>
      obtain ⟨_, -, hbytes, -⟩ := hread hr hr' hs h
      cases hbytes
  | case6 copied w e w₁ h he =>
      obtain ⟨_, -, hbytes, -⟩ := hread hr hr' hs h
      cases hbytes

end Steady

/-! ## What two copies deliver -/

/-- A stream and a sink settle what a transfer delivers. -/
theorem Delivers.unique {s s₁ s₂ : Sink} {pieces : List Piece} {copied : Nat}
    {r₁ r₂ : Except Chain Nat} (h₁ : Delivers s pieces copied r₁ s₁)
    (h₂ : Delivers s pieces copied r₂ s₂) :
    r₁ = r₂ ∧ s₁.received = s₂.received ∧ s₁.flushes = s₂.flushes := by
  cases h₁ with
  | complete hn hf ht =>
      cases h₂ with
      | complete _ _ ht' =>
          refine ⟨rfl, ht.received.trans ht'.received.symm, ?_⟩
          rw [Sink.flush, Sink.flush, ht.flushes, ht'.flushes]
      | unflushed _ hf' => simp [hf] at hf'
      | broken he => simp [hn] at he
      | cut hl hlt =>
          have := ht.fits _ hl
          omega
  | unflushed hn hf ht =>
      cases h₂ with
      | complete _ hf' => simp [hf] at hf'
      | unflushed _ hf' ht' =>
          rw [hf, Option.some.injEq] at hf'
          subst hf'
          refine ⟨rfl, ht.received.trans ht'.received.symm, ?_⟩
          rw [Sink.flush, Sink.flush, ht.flushes, ht'.flushes]
      | broken he => simp [hn] at he
      | cut hl hlt =>
          have := ht.fits _ hl
          omega
  | broken he ht =>
      cases h₂ with
      | complete hn | unflushed hn => simp [he] at hn
      | broken he' ht' =>
          rw [he, Option.some.injEq] at he'
          subst he'
          exact ⟨rfl, ht.received.trans ht'.received.symm, ht.flushes.trans ht'.flushes.symm⟩
      | cut hl hlt =>
          have := ht.fits _ hl
          omega
  | cut hl hlt ht =>
      cases h₂ with
      | complete _ _ ht' | unflushed _ _ ht' | broken _ ht' =>
          have := ht'.fits _ hl
          omega
      | cut hl' _ ht' =>
          rw [hl, Option.some.injEq] at hl'
          subst hl'
          exact ⟨rfl, ht.received.trans ht'.received.symm, ht.flushes.trans ht'.flushes.symm⟩

/-- Two runs ended alike: they are blamed for the same, and the sinks received the same bytes and
were flushed as often. -/
structure Alike (r : Except Error Nat × World σ) (r' : Except Error Nat × World τ) : Prop where
  blamed : blamed r.1 = blamed r'.1
  received : r.2.sink.received = r'.2.sink.received
  flushes : r.2.sink.flushes = r'.2.sink.flushes

namespace Copy

variable {p : Provider σ V F} {q : Provider τ U G} {v : V} {u : U} {f : F} {g : G}
  {path : String} {w : World σ} {w' : World τ}

theorem copy_unopened {e : IoError} (h : (p.openFile v path w.state).result = .error e)
    (target : String) (chunk : Nat) :
    (copy p v path target chunk w).1 = .error ⟨.copy .opening, target,
        e.chain.within ("cannot open " ++ path ++ " for reading")⟩ ∧
      (copy p v path target chunk w).2.sink = w.sink ∧
      (copy p v path target chunk w).2.state = (p.openFile v path w.state).state := by
  obtain ⟨w₁, ho, hs, hstate⟩ := World.exists_openFile
    (w := w.debug ("opening " ++ Text.quoted path ++ " for reading")) h
  simp only [copy, ho]
  exact ⟨trivial, hs, hstate⟩

theorem copy_unlocked {e : IoError} (hopen : (p.openFile v path w.state).result = .ok f)
    (hlock : (p.lock f .write (p.openFile v path w.state).state).result = .error e)
    (hclose : (p.close f
      (p.lock f .write (p.openFile v path w.state).state).state).result = .ok ())
    (target : String) (chunk : Nat) :
    (copy p v path target chunk w).1 =
        .error ⟨.copy .locking, target, e.chain.within ("cannot lock " ++ path)⟩ ∧
      (copy p v path target chunk w).2.sink = w.sink := by
  obtain ⟨w₁, ho, hs₁, hstate₁⟩ := World.exists_openFile
    (w := w.debug ("opening " ++ Text.quoted path ++ " for reading")) hopen
  have hstate₁ : w₁.state = (p.openFile v path w.state).state := hstate₁
  rw [← hstate₁] at hlock hclose
  obtain ⟨w₂, hl, hs₂, hstate₂⟩ := World.exists_lock hlock
  rw [← hstate₂] at hclose
  obtain ⟨w₃, hc, hs₃⟩ := World.exists_close
    (w := w₂.debug ("closing " ++ Text.quoted path)) hclose
  simp only [copy, ho, lockAndTransfer, hl, hc]
  exact ⟨trivial, hs₃.trans (hs₂.trans hs₁)⟩

end Copy

/-- What a copy finds of a file: it cannot be opened, or it can be opened and closed but not
locked, or it holds `data` and can be read to its end under the lock. -/
inductive Finds (p : Provider σ V F) (v : V) (path : String) (s : σ) (most : Nat → Nat) :
    Except IoError (Except IoError Contents) → Prop
  | absent {e} : (p.openFile v path s).result = .error e → Finds p v path s most (.error e)
  | locked {f e} : (p.openFile v path s).result = .ok f →
      (p.lock f .write (p.openFile v path s).state).result = .error e →
      (p.close f (p.lock f .write (p.openFile v path s).state).state).result = .ok () →
      Finds p v path s most (.ok (.error e))
  | granted {f data Reached} : (p.openFile v path s).result = .ok f →
      (p.lock f .write (p.openFile v path s).state).result = .ok () →
      Steady p f data most Reached →
      Reached 0 (p.lock f .write (p.openFile v path s).state).state →
      (∀ position s, Reached position s → (p.close f s).result = .ok ()) →
      Finds p v path s most (.ok (.ok data))

namespace Finds

variable {p : Provider σ V F} {q : Provider τ U G} {v : V} {u : U} {path : String} {w : World σ}
  {w' : World τ} {most most' : Nat → Nat} {chunk : Nat}
  {found : Except IoError (Except IoError Contents)}

/-- A copy that is granted its file ends as the transfer of the whole file does. -/
theorem exists_transfer {data : Contents} (h : Finds p v path w.state most (.ok (.ok data)))
    (target : String) (chunk : Nat) :
    ∃ f Reached, ∃ w₁ : World σ, Steady p f data most Reached ∧ Reached 0 w₁.state ∧
      w₁.sink = w.sink ∧
      (Copy.copy p v path target chunk w).1 =
        (Copy.transfer p f (Copy.readSize chunk) 0 w₁).1.mapError (⟨.copy .transfer, target, ·⟩) ∧
      (Copy.copy p v path target chunk w).2.sink =
        (Copy.transfer p f (Copy.readSize chunk) 0 w₁).2.sink := by
  cases h with
  | granted ho hl hsteady hr hc =>
      obtain ⟨w₁, hs₁, hw₁, hresult, hsink⟩ := hsteady.streams.copy_eq_transfer ho hl ⟨0, hr, rfl⟩
        (fun s _ h => h.elim fun position h => hc position s h.1) target chunk
      rw [← hw₁] at hr
      exact ⟨_, _, w₁, hsteady, hr, hs₁, hresult, hsink⟩

/-- A copy that is not granted its file fails, and the sink gets nothing of it. -/
theorem copy_refused (h : Finds p v path w.state most found)
    (hrefused : ∀ data, found ≠ .ok (.ok data)) (target : String) (chunk : Nat) :
    (∃ e, (Copy.copy p v path target chunk w).1 = .error e) ∧
      (Copy.copy p v path target chunk w).2.sink = w.sink := by
  cases h with
  | absent ho =>
      obtain ⟨hr, hk, -⟩ := Copy.copy_unopened ho target chunk
      exact ⟨⟨_, hr⟩, hk⟩
  | locked ho hl hc =>
      obtain ⟨hr, hk⟩ := Copy.copy_unlocked ho hl hc target chunk
      exact ⟨⟨_, hr⟩, hk⟩
  | granted => exact absurd rfl (hrefused _)

/-- Copies that find the same and get the same with each read end in the same way. -/
theorem copy_congr (hp : Finds p v path w.state most found)
    (hq : Finds q u path w'.state most' found) (hs : w.sink = w'.sink)
    (hmost : ∀ data, found = .ok (.ok data) →
      SameReads data (most (Copy.readSize chunk)) (most' (Copy.readSize chunk)))
    (target : String) :
    (Copy.copy p v path target chunk w).1 = (Copy.copy q u path target chunk w').1 ∧
      (Copy.copy p v path target chunk w).2.sink = (Copy.copy q u path target chunk w').2.sink := by
  rcases found with e | e | data
  · cases hp with
    | absent ho =>
        cases hq with
        | absent ho' =>
            obtain ⟨hr, hk, -⟩ := Copy.copy_unopened ho target chunk
            obtain ⟨hr', hk', -⟩ := Copy.copy_unopened ho' target chunk
            exact ⟨by rw [hr, hr'], by rw [hk, hk', hs]⟩
  · cases hp with
    | locked ho hl hc =>
        cases hq with
        | locked ho' hl' hc' =>
            obtain ⟨hr, hk⟩ := Copy.copy_unlocked ho hl hc target chunk
            obtain ⟨hr', hk'⟩ := Copy.copy_unlocked ho' hl' hc' target chunk
            exact ⟨by rw [hr, hr'], by rw [hk, hk', hs]⟩
  · obtain ⟨f, Reached, w₁, hsteady, hr, hs₁, hresult, hsink⟩ := hp.exists_transfer target chunk
    obtain ⟨g, Reached', w₂, hsteady', hr', hs₂, hresult', hsink'⟩ :=
      hq.exists_transfer target chunk
    have hsame : w₁.sink = w₂.sink := by rw [hs₁, hs₂, hs]
    obtain ⟨heq, hsinks⟩ := hsteady.transfer_congr hsteady' (hmost data rfl) 0 hr hr' hsame
    exact ⟨by rw [hresult, hresult', heq], by rw [hsink, hsink', hsinks]⟩

end Finds

/-- What a provider has for a copy of a file, whatever its errors are: nothing, a file that is
locked, or one that holds `data`. -/
def Offers (p : Provider σ V F) (v : V) (path : String) (s : σ) (most : Nat → Nat)
    (offer : Option (Option Contents)) : Prop :=
  ∃ found, Finds p v path s most found ∧ found.toOption.map Except.toOption = offer

/-- Copies from two providers that have the same to offer end alike, if both give the same with
each read or if the sink cannot tell how what it gets is taken apart. -/
theorem Offers.copy_alike {p : Provider σ V F} {q : Provider τ U G} {v : V} {u : U}
    {path : String} {w : World σ} {w' : World τ} {most most' : Nat → Nat} {chunk : Nat}
    {offer : Option (Option Contents)} (hp : Offers p v path w.state most offer)
    (hq : Offers q u path w'.state most' offer) (hs : w.sink = w'.sink)
    (hmost : ∀ data, offer = some (some data) →
      SameReads data (most (Copy.readSize chunk)) (most' (Copy.readSize chunk)) ∨
        w.sink.answers = [])
    (target : String) :
    Alike (Copy.copy p v path target chunk w) (Copy.copy q u path target chunk w') := by
  obtain ⟨found, hp, rfl⟩ := hp
  obtain ⟨found', hq, hoffer⟩ := hq
  cases hp with
  | absent ho =>
      cases hq with
      | absent ho' =>
          obtain ⟨hr, hk, -⟩ := Copy.copy_unopened ho target chunk
          obtain ⟨hr', hk', -⟩ := Copy.copy_unopened ho' target chunk
          exact ⟨by rw [hr, hr']; rfl, by rw [hk, hk', hs], by rw [hk, hk', hs]⟩
      | locked | granted => cases hoffer
  | locked ho hl hc =>
      cases hq with
      | locked ho' hl' hc' =>
          obtain ⟨hr, hk⟩ := Copy.copy_unlocked ho hl hc target chunk
          obtain ⟨hr', hk'⟩ := Copy.copy_unlocked ho' hl' hc' target chunk
          exact ⟨by rw [hr, hr']; rfl, by rw [hk, hk', hs], by rw [hk, hk', hs]⟩
      | absent | granted => cases hoffer
  | granted ho hl hsteady hr hc =>
      cases hq with
      | granted ho' hl' hsteady' hr' hc' =>
          cases hoffer
          have hp := Finds.granted ho hl hsteady hr hc
          have hq := Finds.granted ho' hl' hsteady' hr' hc'
          rcases hmost _ rfl with hmost | ha
          · obtain ⟨heq, hsinks⟩ := hp.copy_congr hq hs (by rintro _ ⟨⟩; exact hmost) target
            exact ⟨congrArg blamed heq, congrArg Sink.received hsinks,
              congrArg Sink.flushes hsinks⟩
          · obtain ⟨f, Reached, w₁, hsteady, hr, hs₁, hresult, hsink⟩ :=
              hp.exists_transfer target chunk
            obtain ⟨g, Reached', w₂, hsteady', hr', hs₂, hresult', hsink'⟩ :=
              hq.exists_transfer target chunk
            have hsame : w₁.sink = w₂.sink := by rw [hs₁, hs₂, hs]
            have hd := hsteady.streams.delivers (Copy.readSize chunk) 0 w₁ ⟨0, hr, rfl⟩
              (by rw [hs₁, ha])
            have hd' := hsteady'.streams.delivers (Copy.readSize chunk) 0 w₂ ⟨0, hr', rfl⟩
              (by rw [← hsame, hs₁, ha])
            rw [hsame] at hd
            obtain ⟨heq, hreceived, hflushes⟩ := hd.unique hd'
            refine ⟨?_, ?_, ?_⟩
            · rw [hresult, hresult', heq]
            · rw [hsink, hsink', hreceived]
            · rw [hsink, hsink', hflushes]
      | absent | locked => cases hoffer

/-! ## Sessions that take what they are told -/

/-- A session that is ready takes every directive and logs where it is told to. -/
structure Obliging (p : Provider σ V F) (Ready : V → σ → Prop) : Prop where
  setOption : ∀ v d s, Ready v s →
    (p.setOption v d s).result = .ok () ∧ Ready v (p.setOption v d s).state
  setLogging : ∀ v s, Ready v s → (p.setLogging v Config.debugLog .debug s).result = .ok () ∧
    Ready v (p.setLogging v Config.debugLog .debug s).state

/-- A command comes to a session that is ready, its own or its caller's, and copies the file with
this path through it. -/
inductive Comes (p : Provider σ V F) (Ready : V → σ → Prop) (path : String) (ctx : Context V)
    (c : Command) (s : σ) : Prop where
  | owned {url v} : ctx.session = none → c.target = .locator url → url.path = path →
      (p.connect url s).result = .ok v → Ready v (p.connect url s).state →
      Comes p Ready path ctx c s
  | supplied {v x} : ctx.session = some v → c.target = .path x → x.text = path → Ready v s →
      Comes p Ready path ctx c s

/-- Through the session of its caller, a command does no more than copy the file. -/
theorem Command.carryOut_supplied (p : Provider σ V F) {v : V} {x : VolumePath} {ctx : Context V}
    {c : Command} (hsession : ctx.session = some v) (htarget : c.target = .path x) (w : World σ) :
    ∃ w₁, w₁.state = w.state ∧ w₁.sink = w.sink ∧
      (c.carryOut p ctx w).1 = (Copy.copy p v x.text c.operand ctx.chunk w₁).1 ∧
      (c.carryOut p ctx w).2.sink = (Copy.copy p v x.text c.operand ctx.chunk w₁).2.sink ∧
      (c.carryOut p ctx w).2.state = (Copy.copy p v x.text c.operand ctx.chunk w₁).2.state := by
  simp only [carryOut, hsession, htarget, copyWithin, Session.close]
  split
  · exact ⟨w, rfl, rfl, rfl, rfl, rfl⟩
  · exact ⟨w.debug "session is already configured, ignoring translator options", rfl, rfl, rfl, rfl,
      rfl⟩

/-- A command that gets no session does nothing else. -/
theorem Command.carryOut_unconnected {p : Provider σ V F} {url : Locator} {x : Chain}
    {ctx : Context V} {c : Command} {w : World σ} (hsession : ctx.session = none)
    (htarget : c.target = .locator url) (he : (p.connect url w.state).result = .error x) :
    (c.carryOut p ctx w).1 = .error ⟨.connect, url.display, x⟩ ∧
      (c.carryOut p ctx w).2.sink = w.sink ∧
      (c.carryOut p ctx w).2.state = (p.connect url w.state).state := by
  obtain ⟨w₁, hcon, hs₁, hstate⟩ := World.exists_connect (w := w.debug ("connecting to volume "
    ++ url.volume ++ " on " ++ url.host ++ ":" ++ toString url.port.toNat)) he
  simp only [carryOut, hsession, htarget, copyAlone, Session.connect, hcon]
  exact ⟨trivial, hs₁, hstate⟩

/-- A command ends as what it carries out does, and reports no more than that. -/
theorem Command.execute_eq (p : Provider σ V F) (c : Command) (ctx : Context V) (w : World σ) :
    (c.execute p ctx w).1 = .ofResult (c.carryOut p ctx w).1 ∧
      (c.execute p ctx w).2.sink = (c.carryOut p ctx w).2.sink ∧
      (c.execute p ctx w).2.state = (c.carryOut p ctx w).2.state := by
  unfold execute
  cases c.carryOut p ctx w with
  | mk result w₁ => cases result <;> exact ⟨rfl, rfl, rfl⟩

namespace Obliging

variable {p : Provider σ V F} {Ready : V → σ → Prop} {v : V} {w : World σ}

theorem applyDirectives (h : Obliging p Ready) (ds : List Directive) (hr : Ready v w.state) :
    ∃ w₁, Session.applyDirectives p v ds w = (.ok (), w₁) ∧ w₁.sink = w.sink ∧
      Ready v w₁.state := by
  induction ds generalizing w with
  | nil => exact ⟨w, rfl, rfl, hr⟩
  | cons d rest ih =>
      obtain ⟨hok, hr₁⟩ := h.setOption v d w.state hr
      obtain ⟨w₁, hset, hs₁, hstate⟩ := World.exists_setOption (w := w.debug ("setting "
        ++ d.setting ++ " of translator " ++ d.xlator ++ " to '" ++ d.value ++ "'")) hok
      rw [World.debug, World.state_report] at hstate
      rw [← hstate] at hr₁
      obtain ⟨w₂, hrest, hs₂, hr₂⟩ := ih hr₁
      refine ⟨w₂, ?_, hs₂.trans hs₁, hr₂⟩
      simp only [Session.applyDirectives, hset]
      exact hrest

theorem configureAndCopy (h : Obliging p Ready) (c : Command) (url : Locator) (debug : Bool)
    (chunk : Nat) (hr : Ready v w.state) :
    ∃ w₁, Command.configureAndCopy p (.owned v) c url debug chunk w =
        Copy.copy p v url.path c.operand chunk w₁ ∧ w₁.sink = w.sink ∧ Ready v w₁.state := by
  obtain ⟨w₁, hset, hs₁, hr₁⟩ := h.applyDirectives c.directives hr
  simp only [Command.configureAndCopy, Session.configurable?, hset]
  cases debug with
  | false => exact ⟨w₁, rfl, hs₁, hr₁⟩
  | true =>
      obtain ⟨hok, hr₂⟩ := h.setLogging v w₁.state hr₁
      obtain ⟨w₂, hlog, hs₂, hstate⟩ := World.exists_setLogging hok
      rw [← hstate] at hr₂
      refine ⟨w₂, ?_, hs₂.trans hs₁, hr₂⟩
      simp only [if_true, Session.setLogging, hlog]

/-- A session that is made for a copy is ready when the copy begins, and it is ended after that. -/
theorem carryOut_owned (h : Obliging p Ready) {url : Locator} {ctx : Context V} {c : Command}
    (hsession : ctx.session = none) (htarget : c.target = .locator url)
    (hok : (p.connect url w.state).result = .ok v) (hr : Ready v (p.connect url w.state).state) :
    ∃ w₁, Ready v w₁.state ∧ w₁.sink = w.sink ∧
      (c.carryOut p ctx w).1 = (Copy.copy p v url.path c.operand ctx.chunk w₁).1 ∧
      (c.carryOut p ctx w).2.sink = (Copy.copy p v url.path c.operand ctx.chunk w₁).2.sink ∧
      (c.carryOut p ctx w).2.state =
        (p.finish v (Copy.copy p v url.path c.operand ctx.chunk w₁).2.state).state := by
  obtain ⟨w₁, hcon, hs₁, hstate⟩ := World.exists_connect (w := w.debug ("connecting to volume "
    ++ url.volume ++ " on " ++ url.host ++ ":" ++ toString url.port.toNat)) hok
  rw [World.debug, World.state_report] at hstate
  rw [← hstate] at hr
  obtain ⟨w₂, hcopy, hs₂, hr₂⟩ := h.configureAndCopy c url
    (c.debug || ctx.debug.getD false) ctx.chunk hr
  have hclose (w : World σ) : ((Session.owned v).close p w).sink = w.sink ∧
      ((Session.owned v).close p w).state = (p.finish v w.state).state := by
    simp only [Session.close]
    split <;> rename_i hf
    · exact ⟨(congrArg (·.2.sink) hf).symm, (congrArg (·.2.state) hf).symm⟩
    · exact ⟨(congrArg (·.2.sink) hf).symm, (congrArg (·.2.state) hf).symm⟩
  refine ⟨w₂, hr₂, hs₂.trans hs₁, ?_⟩
  simp only [Command.carryOut, hsession, htarget, Command.copyAlone, Session.connect, hcon, hcopy,
    hclose, and_self]

theorem execute (h : Obliging p Ready) {path : String} {ctx : Context V} {c : Command}
    (hc : Comes p Ready path ctx c w.state) :
    ∃ v w₁, Ready v w₁.state ∧ w₁.sink = w.sink ∧
      (c.execute p ctx w).1 = .ofResult (Copy.copy p v path c.operand ctx.chunk w₁).1 ∧
      (c.execute p ctx w).2.sink = (Copy.copy p v path c.operand ctx.chunk w₁).2.sink := by
  obtain ⟨hend, hgot, -⟩ := c.execute_eq p ctx w
  rw [hend, hgot]
  cases hc with
  | @owned url v hsession htarget hpath hok hr =>
      obtain ⟨w₁, hr₁, hs₁, hresult, hsink, -⟩ := h.carryOut_owned hsession htarget hok hr
      rw [hresult, hsink, hpath]
      exact ⟨v, w₁, hr₁, hs₁, rfl, rfl⟩
  | @supplied v x hsession htarget hpath hr =>
      obtain ⟨w₁, hstate, hs₁, hresult, hsink, -⟩ :=
        Command.carryOut_supplied p hsession htarget w
      rw [hresult, hsink, hpath]
      exact ⟨v, w₁, hstate ▸ hr, hs₁, rfl, rfl⟩

end Obliging

end LockedCat
