import LockedCat.Proofs.Export.Locks
import LockedCat.Proofs.Protocol

/-!
# Snapshots

Many clients share an export, and other programs write to its files while they hold the write lock
on them. Main statement: whatever order all of that happens in, a file that is read to its end
under a lock gives what it held when the lock was granted, wherever its name has gone meanwhile.
-/

namespace LockedCat

theorem Contents.take_append_stretch (c : Contents) (start stop : Nat) :
    c.toList.take start ++ c.stretch start stop =
      c.toList.take (start + (c.stretch start stop).length) := by
  rw [stretch_eq, List.take_add, List.take_eq_take_min (i := stop - start)]
  simp

namespace Export

namespace State

/-- What the holder of an open file gets from a move. -/
def yield (s : State) (f : Nat) : Move → List UInt8
  | .read g size => if g = f then (s.read f size).result.toOption.getD [] else []
  | _ => []

/-- All that the holder of an open file gets from a run, in order. -/
def gathered (f : Nat) : State → List Move → List UInt8
  | _, [] => []
  | s, m :: ms => s.yield f m ++ gathered f (s.step m) ms

/-- A direct write to a file that is there happens while a writer holds the write lock on it. -/
def Disciplined (writer : Nat → Prop) (s : State) (m : Move) : Prop :=
  ∀ id, s.rewritten? m = some id →
    ∃ g h, writer g ∧ s.handle? g = some h ∧ h.file = id ∧ h.lock = some .write

/-- All direct writes of a run are disciplined, and no diagnostics go to the file that is open as
`f`. -/
def Guarded (writer : Nat → Prop) (f : Nat) : State → List Move → Prop
  | _, [] => True
  | s, m :: ms =>
      s.Disciplined writer m ∧ (∀ h, s.handle? f = some h → ¬s.Logs h.file) ∧
        Guarded writer f (s.step m) ms

/-! ## Reading under a lock -/

/-- An open file is locked, its file holds `data`, and this much of it was read. -/
structure Reading (s : State) (f id : Nat) (data : Contents) (got : List UInt8) (h : Handle) :
    Prop where
  handle : s.handle? f = some h
  file : h.file = id
  locked : h.lock.isSome
  contents : s.tree.contents id = data
  got : got = data.toList.take h.position

variable {s : State} {writer : Nat → Prop} {f id : Nat} {data : Contents} {got : List UInt8}
  {h : Handle}

/-- The file that is read is not written to: its reader is not alone with it otherwise. -/
theorem Reading.not_rewritten (hs : s.Sound) (hr : s.Reading f id data got h) (hf : ¬writer f)
    {m : Move} (hm : s.Disciplined writer m) : s.rewritten? m ≠ some id := by
  intro he
  obtain ⟨g, h', hw, hg, hfile, hlock⟩ := hm id he
  have hne : f ≠ g := fun heq => hf (heq ▸ hw)
  obtain ⟨k, hk⟩ := Option.isSome_iff_exists.mp hr.locked
  -- The writer and the reader hold locks on one file, which exclude one another.
  have hexcl := hs.compatible f g h h' k .write hne hr.handle hg (hr.file.trans hfile.symm) hk hlock
  cases k <;> simp [excludes] at hexcl

theorem yield_read (size : Nat) (hh : s.handle? f = some h) :
    s.yield f (.read f size) = s.stretch h size := by
  simp [yield, read, hh, Except.toOption]

theorem yield_of_file?_ne {m : Move} (hm : m.file? ≠ some f) : s.yield f m = [] := by
  cases m with
  | read g size => exact if_neg fun he => hm (by rw [he]; rfl)
  | _ => rfl

theorem Reading.step (hs : s.Sound) (hr : s.Reading f id data got h) (hf : ¬writer f) {m : Move}
    (hm : s.Disciplined writer m) (hl : ¬s.Logs id) (hc : m ≠ .close f) (hd : m ≠ .drop f) :
    ∃ h', (s.step m).Reading f id data (got ++ s.yield f m) h' := by
  have hlt : id < s.tree.files.length := hr.file ▸ hs.exists_file f h hr.handle
  have hdata : (s.step m).tree.contents id = data := by
    rw [(s.spares_step m).contents id hlt ⟨hl, hr.not_rewritten hs hf hm⟩, hr.contents]
  have ht := s.touches_step m f
  generalize hx : (s.step m).handle? f = x at ht
  cases ht with
  | other hne =>
      rw [hr.handle] at hx
      refine ⟨h, hx, hr.file, hr.locked, hdata, ?_⟩
      rw [yield_of_file?_ne hne, List.append_nil, hr.got]
  | absent _ hnone => rw [hr.handle] at hnone; cases hnone
  | opened hnew =>
      have := lt_of_handle? hr.handle
      omega
  | locked hh =>
      rw [hr.handle, Option.some.injEq] at hh
      subst hh
      refine ⟨_, hx, hr.file, rfl, hdata, ?_⟩
      rw [show s.yield f _ = [] from rfl, List.append_nil, hr.got]
  | refused hh =>
      rw [hr.handle, Option.some.injEq] at hh
      subst hh
      refine ⟨h, hx, hr.file, hr.locked, hdata, ?_⟩
      rw [show s.yield f _ = [] from rfl, List.append_nil, hr.got]
  | @read size h' hh =>
      have hyield := yield_read size hh
      rw [hr.handle, Option.some.injEq] at hh
      subst hh
      refine ⟨_, hx, hr.file, hr.locked, hdata, ?_⟩
      rw [hyield, hr.got, stretch, hr.file, hr.contents]
      exact data.take_append_stretch _ _
  | closed => exact absurd rfl hc
  | dropped => exact absurd rfl hd

theorem Reading.run (hs : s.Sound) (hr : s.Reading f id data got h) (hf : ¬writer f)
    {ms : List Move} (hg : Guarded writer f s ms) (hc : .close f ∉ ms) (hd : .drop f ∉ ms) :
    ∃ h', (s.run ms).Reading f id data (got ++ gathered f s ms) h' := by
  induction ms generalizing s got h with
  | nil => exact ⟨h, by simpa [gathered] using hr⟩
  | cons m rest ih =>
      obtain ⟨hm, hl, hg⟩ := hg
      rw [List.mem_cons, not_or] at hc hd
      obtain ⟨h₁, hr₁⟩ := hr.step hs hf hm (hr.file ▸ hl h hr.handle) (Ne.symm hc.1) (Ne.symm hd.1)
      obtain ⟨h₂, hr₂⟩ := ih (hs.step m) hr₁ hg hc.2 hd.2
      rw [List.append_assoc] at hr₂
      exact ⟨h₂, hr₂⟩

/-- A read that gives nothing although it was asked for something has come to the end. -/
theorem Reading.eq_of_end {size : Nat} (hr : s.Reading f id data got h) (hsize : 0 < size)
    (hend : (s.read f size).result = .ok []) : got = data.toList := by
  have hnil : s.stretch h size = [] := by simpa [read, hr.handle] using hend
  have hlen := congrArg List.length hnil
  rw [stretch, Contents.length_stretch, hr.file, hr.contents, List.length_nil] at hlen
  have hlimit : 0 < min size readLimit := by
    unfold readLimit
    omega
  rw [hr.got, List.take_of_length_le]
  rw [Array.length_toList]
  omega

theorem position_run {ms : List Move} (h₀ : ∀ h, s.handle? f = some h → h.position = 0)
    (hr : ∀ size, .read f size ∉ ms) :
    ∀ h, (s.run ms).handle? f = some h → h.position = 0 := by
  induction ms generalizing s with
  | nil => exact h₀
  | cons m rest ih =>
      refine ih (fun h hf => ?_) fun size hm => hr size (List.mem_cons_of_mem m hm)
      have ht := s.touches_step m f
      rw [hf] at ht
      generalize hx : some h = x at ht
      cases ht with
      | other => exact h₀ h hx.symm
      | absent | closed | dropped => cases hx
      | opened => cases hx; rfl
      | locked hh | refused hh =>
          cases hx
          have := h₀ _ hh
          exact this
      | read => exact absurd (List.mem_cons_self ..) (hr _)

theorem handle?_of_lock {kind : LockKind} (h : (s.lock f kind).result = .ok ()) :
    ∃ h, s.handle? f = some h := by
  unfold lock at h
  split at h
  · cases h
  · rename_i h' hh
    exact ⟨h', hh⟩

theorem lock_reading {kind : LockKind} (hs : s.Sound) (hf : s.handle? f = some h)
    (hp : h.position = 0) (hl : ¬s.Logs h.file) (hg : (s.lock f kind).result = .ok ()) :
    ∃ h', (s.step (.lock f kind)).Reading f h.file (s.tree.contents h.file) [] h' := by
  have hlt := hs.exists_file f h hf
  have hdata := (s.spares_step (.lock f kind)).contents h.file hlt ⟨hl, by simp [rewritten?]⟩
  have ht := s.touches_step (.lock f kind) f
  generalize hx : (s.step (.lock f kind)).handle? f = x at ht
  cases ht with
  | other hne => exact absurd rfl hne
  | absent _ hnone => rw [hf] at hnone; cases hnone
  | refused _ hno => exact absurd hg hno
  | locked hh =>
      rw [hf, Option.some.injEq] at hh
      subst hh
      exact ⟨_, hx, rfl, rfl, hdata, by simp [hp]⟩

/-- A copy is a run of moves: the file is opened, locked for writing, read and closed. The reader
of a file that is locked, who reads it to its end, gets what it held when the lock was granted. -/
theorem run_snapshot {size : Nat} {kind : LockKind} {before during : List Move}
    (hgrounded : s.tree.Grounded) (hfresh : s.handles = [])
    (hunread : ∀ size, .read f size ∉ before)
    (hgrant : ((s.run before).lock f kind).result = .ok ()) (hreader : ¬writer f)
    (hguard : Guarded writer f (s.run before) (.lock f kind :: during))
    (hclose : .close f ∉ during) (hdrop : .drop f ∉ during) (hsize : 0 < size)
    (hend : ((s.run (before ++ .lock f kind :: during)).read f size).result = .ok []) :
    (∃ h, (s.run before).handle? f = some h ∧
      gathered f (s.run before) (.lock f kind :: during) =
        ((s.run before).tree.contents h.file).toList) ∧
    ∀ v path target chunk (w : World State), ∃ as,
      Acts provider w as (Copy.copy provider v path target chunk w).2 ∧
      (Copy.copy provider v path target chunk w).2.state = w.state.run (as.filterMap act?) ∧
      CopyCalls v path (as.filter Act.isCall) := by
  refine ⟨?_, fun v path target chunk w => ?_⟩
  · have hsound : (s.run before).Sound := (Sound.of_no_handles hgrounded hfresh).run before
    obtain ⟨h, hh⟩ := handle?_of_lock hgrant
    have hstart : h.position = 0 := by
      refine position_run (fun h₀ hh₀ => ?_) hunread h hh
      simp [handle?, hfresh] at hh₀
    obtain ⟨-, hlog, hguard⟩ := hguard
    obtain ⟨h₁, hr₁⟩ := lock_reading hsound hh hstart (hlog h hh) hgrant
    obtain ⟨h₂, hr₂⟩ := hr₁.run (hsound.step _) hreader hguard hclose hdrop
    rw [run_append, run_cons] at hend
    exact ⟨h, hh, hr₂.eq_of_end hsize hend⟩
  · obtain ⟨as, hacts, htrace⟩ := copy_trace provider v path target chunk w
    exact ⟨as, hacts, run_of_acts hacts, htrace.calls⟩

/-- While a file is read under a lock, its name is taken away and given to another file, which is
then locked and rewritten. -/
theorem run_snapshot_recreated :
    let s : State := {
      root := "/r"
      now := { year := 2024, month := 1, day := 1 }
      tree := {
        nodes := [(["v"], .directory), (["v", "f"], .file 0)]
        files := [#[1, 2, 3]] }
      volumes := [{ brick := "/r/v", name := "v" }] }
    let during : List Move := [.read 0 2, .remove "/r/v/f", .put "/r/v/f" #[9],
      .openFile 0 "/f", .lock 1 .write, .put "/r/v/f" #[7, 7], .read 0 2]
    s.tree.Grounded ∧ s.handles = [] ∧ (∀ size, .read 0 size ∉ [Move.openFile 0 "/f"]) ∧
      ((s.run [.openFile 0 "/f"]).lock 0 .read).result = .ok () ∧ ¬0 = 1 ∧
      Guarded (· = 1) 0 (s.run [.openFile 0 "/f"]) (.lock 0 .read :: during) ∧
      .close 0 ∉ during ∧ .drop 0 ∉ during ∧ 0 < 1 ∧
      ((s.run ([.openFile 0 "/f"] ++ .lock 0 .read :: during)).read 0 1).result = .ok [] ∧
      gathered 0 (s.run [.openFile 0 "/f"]) (.lock 0 .read :: during) = [1, 2, 3] := by
  intro s during
  have hgrounded : s.tree.Grounded := by
    intro names id hm
    simp only [s, List.mem_cons, Prod.mk.injEq, reduceCtorEq, and_false, Node.file.injEq,
      List.not_mem_nil, or_false, false_or] at hm
    simp [s, hm.2]
  have hunread : ∀ size, .read 0 size ∉ [Move.openFile 0 "/f"] := by simp
  have hgrant : ((s.run [.openFile 0 "/f"]).lock 0 .read).result = .ok () := rfl
  have hquiet (t : State) (ht : t.volumes.all fun volume => volume.log.isNone) (h : Handle) :
      ¬t.Logs h.file := by
    rintro ⟨volume, hv, most, hl⟩
    simpa [hl] using List.all_eq_true.mp ht volume hv
  have hnew (t : State) (m : Move) (hn : t.rewritten? m = none) : t.Disciplined (· = 1) m := by
    simp [Disciplined, hn]
  have hheld (t : State) (m : Move) (hm : t.rewritten? m = some 1)
      (hh : (t.handle? 1).any fun h => h.file = 1 ∧ h.lock = some .write) :
      t.Disciplined (· = 1) m := by
    intro id hid
    rw [hm, Option.some.injEq] at hid
    subst hid
    cases hx : t.handle? 1 with
    | none => simp [hx] at hh
    | some h =>
        have hlock : h.file = 1 ∧ h.lock = some .write := by simpa [hx] using hh
        exact ⟨1, h, rfl, hx, hlock⟩
  have hguard : Guarded (· = 1) 0 (s.run [.openFile 0 "/f"]) (.lock 0 .read :: during) := by
    refine ⟨nofun, fun h _ => hquiet _ ?_ h, nofun, fun h _ => hquiet _ ?_ h, nofun,
      fun h _ => hquiet _ ?_ h, hnew _ _ ?_, fun h _ => hquiet _ ?_ h, nofun,
      fun h _ => hquiet _ ?_ h, nofun, fun h _ => hquiet _ ?_ h, hheld _ _ ?_ ?_,
      fun h _ => hquiet _ ?_ h, nofun, fun h _ => hquiet _ ?_ h, trivial⟩
    all_goals decide +kernel +zetaReduce
  have hok (r : Except IoError (List UInt8)) (h : r.toOption = some []) : r = .ok [] := by
    cases r with
    | error e => cases h
    | ok bytes => simpa [Except.toOption] using h
  have hend : ((s.run ([.openFile 0 "/f"] ++ .lock 0 .read :: during)).read 0 1).result =
      .ok [] := hok _ (by decide +kernel +zetaReduce)
  obtain ⟨⟨h, hh, hgot⟩, -⟩ := run_snapshot hgrounded rfl hunread hgrant (by decide) hguard
    (by simp [during]) (by simp [during]) (by decide) hend
  refine ⟨hgrounded, rfl, hunread, hgrant, by decide, hguard, by simp [during], by simp [during],
    by decide, hend, ?_⟩
  cases hh
  exact hgot

end State

end Export

end LockedCat
