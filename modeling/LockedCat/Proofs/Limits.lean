import LockedCat.World

/-!
# What a sink takes

A sink for which nothing was settled beforehand takes bytes up to a limit, however it splits them.
Main statement: writing all of some bytes succeeds exactly when they are within the limit, and
otherwise as many get there as the limit says.
-/

namespace LockedCat

variable {σ : Type}

/-! ## Limits -/

namespace Sink

/-- How many bytes a sink takes in all, if nothing was settled beforehand and there is a limit.
An interruption that a full sink reports lifts its limit. -/
def limit (s : Sink) : Option Nat :=
  if s.most = some 0 then some 0
  else if s.refusal.any IoError.isInterrupted then none
  else s.room

/-- What a write beyond the limit fails with. -/
def obstacle (s : Sink) : IoError :=
  if s.room.isNone ∨ s.refusal.any IoError.isInterrupted then .simple .writeZero
  else s.refusal.getD (.simple .writeZero)

/-- So many bytes are within the limit. -/
def Fits (s : Sink) (n : Nat) : Prop := ∀ most, s.limit = some most → n ≤ most

/-- The second sink is the first after it took these bytes. -/
structure Took (s : Sink) (bytes : List UInt8) (s' : Sink) : Prop where
  fits : s.Fits bytes.length
  received : s'.received = s.received ++ bytes
  limit : s'.limit = s.limit.map (· - bytes.length)
  obstacle : s'.obstacle = s.obstacle
  answers : s'.answers = []
  flushFailure : s'.flushFailure = s.flushFailure
  flushes : s'.flushes = s.flushes

namespace Took

variable {s s₁ s' : Sink} {bytes more : List UInt8}

theorem refl (h : s.answers = []) : Took s [] s where
  fits _ _ := Nat.zero_le _
  received := (List.append_nil _).symm
  limit := by cases s.limit <;> simp
  obstacle := rfl
  answers := h
  flushFailure := rfl
  flushes := rfl

theorem fits_after (h : Took s bytes s') {n : Nat} :
    s'.Fits n ↔ s.Fits (bytes.length + n) := by
  have hfits := h.fits
  unfold Fits at hfits ⊢
  rw [h.limit]
  cases hl : s.limit with
  | none => simp
  | some most =>
      have := hfits most hl
      simp only [Option.map_some, Option.some.injEq, forall_eq']
      omega

theorem trans (h : Took s bytes s₁) (h' : Took s₁ more s') : Took s (bytes ++ more) s' where
  fits := by
    rw [List.length_append]
    exact h.fits_after.mp h'.fits
  received := by rw [h'.received, h.received, List.append_assoc]
  limit := by
    rw [h'.limit, h.limit, Option.map_map, List.length_append]
    congr 1
    funext n
    simp only [Function.comp]
    omega
  obstacle := by rw [h'.obstacle, h.obstacle]
  answers := h'.answers
  flushFailure := by rw [h'.flushFailure, h.flushFailure]
  flushes := by rw [h'.flushes, h.flushes]

end Took

/-- One write of a sink, in terms of its limit. -/
inductive Accepts (s : Sink) (bytes : List UInt8) : Except IoError Nat → Sink → Prop where
  | part {n s'} : n + 1 ≤ bytes.length → Took s (bytes.take (n + 1)) s' →
      Accepts s bytes (.ok (n + 1)) s'
  | refused {s'} : s.limit = some 0 → s.obstacle = .simple .writeZero → Took s [] s' →
      Accepts s bytes (.ok 0) s'
  | again {e s'} : e.isInterrupted → Took s [] s' → Accepts s bytes (.error e) s'
  | failed {e s'} : ¬e.isInterrupted → s.limit = some 0 → s.obstacle = e → Took s [] s' →
      Accepts s bytes (.error e) s'

theorem most_or_room {s : Sink} {n : Nat} (hn : 0 < n) (h : s.capacity n = 0) :
    s.most = some 0 ∨ s.room = some 0 := by
  unfold capacity at h
  cases hm : s.most <;> cases hr : s.room <;> simp only [hm, hr] at h <;>
    simp only [Option.some.injEq, reduceCtorEq, false_or, or_false] <;> omega

theorem limit_eq_zero {s : Sink} {n : Nat} (hn : 0 < n) (h : s.capacity n = 0)
    (hl : s.refusal.any IoError.isInterrupted = false) : s.limit = some 0 := by
  rcases most_or_room hn h with h | h <;> simp [limit, h, hl]

theorem refuse_accepts {s : Sink} {bytes : List UInt8} (ha : s.answers = []) (hb : bytes ≠ [])
    (hz : s.capacity bytes.length = 0) (hr : s.room.isSome) :
    Accepts s bytes s.refuse.1 s.refuse.2 := by
  have hlimit := limit_eq_zero (List.length_pos_iff.mpr hb) hz
  have hsame (s' : Sink) (hl : s'.limit = s.limit) (ho : s'.obstacle = s.obstacle)
      (hd : s'.data = s.data) (ha' : s'.answers = s.answers)
      (hf : s'.flushFailure = s.flushFailure) (hn : s'.flushes = s.flushes) : Took s [] s' :=
    ⟨fun _ _ => Nat.zero_le _, by simp [received, hd], by rw [hl]; exact (Took.refl ha).limit, ho,
      by rw [ha', ha], hf, hn⟩
  unfold refuse
  cases hf : s.refusal with
  | none =>
      refine .refused (hlimit (by simp [hf])) (by simp [obstacle, hf]) ?_
      refine hsame _ ?_ ?_ rfl rfl rfl rfl <;> simp [limit, obstacle, hf]
  | some e =>
      by_cases he : e.isInterrupted
      · refine .again he (hsame _ ?_ ?_ rfl rfl rfl rfl) <;> simp [limit, obstacle, hf, he]
      · have hroom : s.room ≠ none := Option.isSome_iff_ne_none.mp hr
        refine .failed he (hlimit (by simp [hf, he])) (by simp [obstacle, hf, he, hroom]) ?_
        refine hsame _ ?_ ?_ rfl rfl rfl rfl <;> simp [limit, obstacle, hf, he]

theorem limit_take (s : Sink) (bytes : List UInt8) :
    (s.take bytes).limit = s.limit.map (· - bytes.length) := by
  unfold limit take
  split
  · simp
  · split <;> rfl

theorem fits_capacity (s : Sink) (n : Nat) : s.Fits (s.capacity n) := by
  intro most h
  unfold limit at h
  unfold capacity
  split at h
  · rename_i hm
    cases s.room <;> simp [hm]
  · split at h
    · cases h
    · rw [h]
      exact Nat.min_le_right _ _

theorem offer_accepts {s : Sink} {bytes : List UInt8} (ha : s.answers = []) (hb : bytes ≠ []) :
    Accepts s bytes (s.offer bytes).1 (s.offer bytes).2 := by
  unfold offer
  split
  · rename_i hz
    exact refuse_accepts ha hb hz.1 hz.2
  · rename_i hz
    have hle := s.capacity_le bytes.length
    have htook : Took s (bytes.take (s.capacity bytes.length))
        (s.take (bytes.take (s.capacity bytes.length))) := by
      refine ⟨?_, received_take _ _, limit_take _ _, ?_, ha, rfl, rfl⟩
      · rw [List.length_take, Nat.min_eq_left hle]
        exact s.fits_capacity _
      · simp [obstacle, take]
    cases hc : s.capacity bytes.length with
    | zero =>
        have hroom : s.room = none := by
          cases hr : s.room with
          | none => rfl
          | some room => exact absurd ⟨hc, by simp [hr]⟩ hz
        have hmost : s.most = some 0 := by
          simpa [hroom] using most_or_room (List.length_pos_iff.mpr hb) hc
        rw [hc] at htook
        exact .refused (by simp [limit, hmost]) (by simp [obstacle, hroom]) htook
    | succ n =>
        rw [hc] at htook hle
        exact .part hle htook

/-- What becomes of bytes that are to be written in full. -/
inductive Written (s : Sink) (bytes : List UInt8) : Except IoError Unit → Sink → Prop where
  | all {s'} : Took s bytes s' → Written s bytes (.ok ()) s'
  | cut {cap s'} : s.limit = some cap → cap < bytes.length → Took s (bytes.take cap) s' →
      Written s bytes (.error s.obstacle) s'

/-- A limit that bytes were taken within, in terms of the one left after them. -/
theorem Took.limit_before {s s' : Sink} {bytes : List UInt8} {cap : Nat} (h : Took s bytes s')
    (hl : s'.limit = some cap) : s.limit = some (bytes.length + cap) := by
  rw [h.limit, Option.map_eq_some_iff] at hl
  obtain ⟨most, hm, rfl⟩ := hl
  have hfits := h.fits most hm
  rw [hm]
  congr 1
  omega

theorem Took.written {s s₁ s' : Sink} {bytes more : List UInt8} {r : Except IoError Unit}
    (h : Took s bytes s₁) (h' : Written s₁ more r s') : Written s (bytes ++ more) r s' := by
  cases h' with
  | all ht => exact .all (h.trans ht)
  | cut hl hlt ht =>
      rw [h.obstacle]
      refine .cut (h.limit_before hl) (by rw [List.length_append]; omega) ?_
      rw [List.take_length_add_append]
      exact h.trans ht

end Sink

/-! ## Writing -/

theorem World.write_accepts {w w' : World σ} {bytes : List UInt8} {r : Except IoError Nat}
    (ha : w.sink.answers = []) (hb : bytes ≠ []) (h : w.write bytes = (r, w')) :
    Sink.Accepts w.sink bytes r w'.sink := by
  have hw : w.sink.write bytes = w.sink.offer bytes := by simp [Sink.write, ha]
  obtain ⟨hr, hs, -⟩ := World.write_eq h
  rw [hw] at hr hs
  rw [← hr, hs]
  exact Sink.offer_accepts ha hb

theorem World.writeAll_written (w : World σ) (bytes : List UInt8) (ha : w.sink.answers = []) :
    Sink.Written w.sink bytes (w.writeAll bytes).1 (w.writeAll bytes).2.sink := by
  fun_induction World.writeAll w bytes with
  | case1 w bytes hb =>
      rw [List.isEmpty_iff.mp hb]
      exact .all (.refl ha)
  | case2 w bytes hb w' h =>
      have hne : bytes ≠ [] := fun he => hb (by simp [he])
      cases World.write_accepts ha hne h with
      | refused hl ho ht =>
          rw [← ho]
          exact .cut hl (List.length_pos_iff.mpr hne) ht
  | case3 w bytes hb n w' h ih =>
      cases World.write_accepts ha (fun he => hb (by simp [he])) h with
      | part hn ht =>
          have := ht.written (ih ht.answers)
          rwa [List.take_append_drop] at this
  | case4 w bytes hb e w' h he ih =>
      cases World.write_accepts ha (fun he => hb (by simp [he])) h with
      | again _ ht => exact ht.written (ih ht.answers)
      | failed hn => exact absurd he hn
  | case5 w bytes hb e w' h he =>
      have hne : bytes ≠ [] := fun he => hb (by simp [he])
      cases World.write_accepts ha hne h with
      | again hi => exact absurd hi he
      | failed _ hl ho ht =>
          rw [← ho]
          exact .cut hl (List.length_pos_iff.mpr hne) ht

end LockedCat
