import LockedCat.Proofs.Export.Moves

/-!
# Locks

Locks belong to open files and exclude one another over the identity of the file. Main statement:
whatever moves are made, an open file names a file that exists, and no two open files on one file
hold locks that exclude one another.
-/

namespace LockedCat.Export

theorem excludes_comm (k k' : LockKind) : excludes k k' = excludes k' k := by
  cases k <;> cases k' <;> rfl

namespace State

variable {s s' : State}

theorem handle?_eq_some {f : Nat} {h : Handle} :
    s.handle? f = some h ↔ s.handles[f]? = some (some h) := by
  unfold handle?
  cases s.handles[f]? <;> simp

/-- A lock is free when every other open file on the same file holds one that goes with it. -/
theorem isFree_iff {f : Nat} {h : Handle} {kind : LockKind} :
    s.isFree f h kind ↔ ∀ g h' k, g ≠ f → s.handle? g = some h' → h'.file = h.file →
      h'.lock = some k → excludes kind k = false := by
  unfold isFree
  rw [List.all_eq_true]
  constructor
  · intro hall g h' k hg hh hfile hlock
    have hmem : (some h', g) ∈ s.handles.zipIdx :=
      List.mem_zipIdx_iff_getElem?.mpr (handle?_eq_some.mp hh)
    simpa [hg, hfile, hlock] using hall _ hmem
  · intro hall ⟨x, g⟩ hmem
    by_cases hg : g = f
    · simp [hg]
    · cases x with
      | none => simp
      | some h' =>
          have hh := handle?_eq_some.mpr (List.mem_zipIdx_iff_getElem?.mp hmem)
          by_cases hfile : h'.file = h.file
          · cases hlock : h'.lock with
            | none => simp [hlock]
            | some k => simp [hlock, hall g h' k hg hh hfile hlock]
          · simp [hfile]

/-- No two open files on one file hold locks that exclude one another. -/
def Compatible (s : State) : Prop :=
  ∀ f g h h' k k', f ≠ g → s.handle? f = some h → s.handle? g = some h' →
    h.file = h'.file → h.lock = some k → h'.lock = some k' → excludes k k' = false

/-- What holds of an export whatever is done to it. -/
structure Sound (s : State) : Prop where
  grounded : s.tree.Grounded
  exists_file : ∀ f h, s.handle? f = some h → h.file < s.tree.files.length
  compatible : s.Compatible

theorem Sound.of_no_handles (hg : s.tree.Grounded) (hh : s.handles = []) : s.Sound := by
  have hnone (f : Nat) : s.handle? f = none := by simp [handle?, hh]
  refine ⟨hg, fun f h hf => ?_, fun f g h h' k k' _ hf => ?_⟩
  all_goals simp [hnone] at hf

/-- An open file that holds a lock after a move held it before, unless the move took it. -/
theorem lock_step {m : Move} {f : Nat} {h : Handle} {k : LockKind}
    (hf : (s.step m).handle? f = some h) (hl : h.lock = some k) :
    ∃ h₀, s.handle? f = some h₀ ∧ h₀.file = h.file ∧
      (h₀.lock = some k ∨ m = .lock f k ∧ s.isFree f h₀ k) := by
  have ht := s.touches_step m f
  rw [hf] at ht
  generalize hx : some h = x at ht
  cases ht with
  | other => exact ⟨h, hx.symm, rfl, .inl hl⟩
  | absent | closed | dropped => cases hx
  | opened =>
      cases hx
      cases hl
  | locked hh hfree =>
      cases hx
      cases hl
      exact ⟨_, hh, rfl, .inr ⟨rfl, hfree⟩⟩
  | refused hh =>
      cases hx
      exact ⟨_, hh, rfl, .inl hl⟩
  | read hh =>
      cases hx
      exact ⟨_, hh, rfl, .inl hl⟩

theorem Compatible.step (hc : s.Compatible) (m : Move) : (s.step m).Compatible := by
  intro f g x y k k' hfg hf hg hfile hk hk'
  obtain ⟨x₀, hf₀, hx, hkx⟩ := lock_step hf hk
  obtain ⟨y₀, hg₀, hy, hky⟩ := lock_step hg hk'
  have hfile₀ : x₀.file = y₀.file := by rw [hx, hy, hfile]
  -- A lock that was just taken was free of all others, and one move takes one lock.
  rcases hkx with hkx | ⟨rfl, hfree⟩
  · rcases hky with hky | ⟨-, hfree⟩
    · exact hc f g x₀ y₀ k k' hfg hf₀ hg₀ hfile₀ hkx hky
    · rw [excludes_comm]
      exact isFree_iff.mp hfree f x₀ k hfg hf₀ hfile₀ hkx
  · rcases hky with hky | ⟨he, -⟩
    · exact isFree_iff.mp hfree g y₀ k' (Ne.symm hfg) hg₀ hfile₀.symm hky
    · cases he
      exact absurd rfl hfg

theorem Compatible.run (hc : s.Compatible) (ms : List Move) : (s.run ms).Compatible := by
  induction ms generalizing s with
  | nil => exact hc
  | cons m rest ih => exact ih (hc.step m)

theorem Sound.step (h : s.Sound) (m : Move) : (s.step m).Sound := by
  have hspares := s.spares_step m
  refine ⟨hspares.grounded h.grounded, fun f x hf => ?_, Compatible.step h.compatible m⟩
  · have ht := s.touches_step m f
    rw [hf] at ht
    have hle := hspares.length_le
    generalize hx : some x = y at ht
    cases ht with
    | other =>
        have := h.exists_file f x hx.symm
        omega
    | absent | closed | dropped => cases hx
    | opened _ hm =>
        cases hx
        exact Nat.lt_of_lt_of_le (h.grounded _ _ hm) hle
    | locked hh | refused hh | read hh =>
        cases hx
        have hlt := h.exists_file f _ hh
        exact Nat.lt_of_lt_of_le hlt hle

theorem Sound.run (h : s.Sound) (ms : List Move) : (s.run ms).Sound := by
  induction ms generalizing s with
  | nil => exact h
  | cons m rest ih => exact ih (h.step m)

end State

end LockedCat.Export
