import LockedCat.Proofs.Export.Holdings

/-!
# What lasts

A session keeps the directory that it was opened for, and an open file stays the same file,
whatever is done to the export meanwhile.
-/

namespace LockedCat.Export.State

variable {s : State} {v : Nat}

/-! ## Sessions -/

/-- A session with the volume in this directory. -/
def Serves (s : State) (v : Nat) (brick name : String) : Prop :=
  ∃ x, s.volume? v = some x ∧ x.brick = brick ∧ x.name = name

namespace Serves

variable {s' : State} {brick name : String}

theorem congr (h : s.Serves v brick name) (hv : s'.volumes = s.volumes) :
    s'.Serves v brick name := by
  unfold Serves volume? at h ⊢
  rwa [hv]

/-- Other sessions begin, and this one stays what it is. -/
theorem added (h : s.Serves v brick name) {x : Volume} (hv : s'.volumes = s.volumes ++ [x]) :
    s'.Serves v brick name := by
  obtain ⟨y, hy, hrest⟩ := h
  obtain ⟨hlt, -⟩ := List.getElem?_eq_some_iff.mp hy
  refine ⟨y, ?_, hrest⟩
  rw [volume?_added hv, if_neg (Nat.ne_of_lt hlt)]
  exact hy

theorem setVolume (h : s.Serves v brick name) {u : Nat} {old new : Volume}
    (hold : s.volume? u = some old) (hbrick : new.brick = old.brick) (hname : new.name = old.name)
    (hv : s'.volumes = s.volumes) : (s'.setVolume u new).Serves v brick name := by
  obtain ⟨y, hy, hrest⟩ := h
  have hlookup : (s'.setVolume u new).volume? v = if u = v then some new else some y := by
    rw [← hy]
    exact volume?_changed hold (congrArg (·.set u new) hv) v
  by_cases hu : u = v
  · subst hu
    rw [hold, Option.some.injEq] at hy
    subst hy
    rw [if_pos rfl] at hlookup
    exact ⟨new, hlookup, hbrick.trans hrest.1, hname.trans hrest.2⟩
  · rw [if_neg hu] at hlookup
    exact ⟨y, hlookup, hrest⟩

end Serves

variable {brick name : String}

theorem volumes_put (s : State) (path : String) (contents : Contents) :
    ((s.put path contents).toOption.getD s).volumes = s.volumes := by
  unfold put
  split
  · rfl
  · rename_i r _
    cases s.tree.put r contents <;> rfl

theorem volumes_remove (s : State) (path : String) :
    ((s.remove path).toOption.getD s).volumes = s.volumes := by
  unfold remove
  split
  · rfl
  · rename_i r _
    cases s.tree.remove r <;> rfl

theorem Serves.connect (h : s.Serves v brick name) (url : Locator) :
    (s.connect url).state.Serves v brick name := by
  rcases s.connect_eq url with ⟨c, he⟩ | ⟨-, -, ho⟩
  · rw [he]
    exact h
  · rw [ho]
    exact h.added rfl

theorem Serves.setOption (h : s.Serves v brick name) (u : Nat)
    (d : Directive) : (s.setOption u d).state.Serves v brick name := by
  unfold State.setOption
  split
  · exact h
  · rename_i volume hvolume
    simp only
    cases volume.option? d.key with
    | none => exact h.setVolume hvolume rfl rfl (volumes_say ..)
    | some old =>
        exact h.setVolume hvolume rfl rfl ((volumes_say ..).trans (volumes_say ..))

theorem Serves.setLogging (h : s.Serves v brick name) (u : Nat)
    (sink : String) (level : Level) :
    (s.setLogging u sink level).state.Serves v brick name := by
  rcases s.setLogging_eq u sink level with ⟨c, he⟩ | ⟨x, log, s₁, hx, ho, hs⟩
  · rw [he]
    exact h
  · rw [hs]
    exact h.setVolume hx rfl rfl (openLog_volumes ho)

/-- No move takes a session to another directory. -/
theorem Serves.step (h : s.Serves v brick name) (m : Move) :
    (s.step m).Serves v brick name := by
  cases m with
  | connect url => exact h.connect url
  | setOption u d => exact h.setOption u d
  | setLogging u sink level => exact h.setLogging u sink level
  | openFile u path => exact h.congr (s.still_openFile u path).volumes
  | lock f kind => exact h.congr (s.still_lock f kind).volumes
  | read f size => exact h.congr (s.still_read f size).volumes
  | close f => exact h.congr (s.still_close f).volumes
  | drop f => exact h.congr rfl
  | finish u => exact h.congr (s.still_finish u).volumes
  | put path contents => exact h.congr (s.volumes_put path contents)
  | remove path => exact h.congr (s.volumes_remove path)

theorem Serves.run (h : s.Serves v brick name) (ms : List Move) :
    (s.run ms).Serves v brick name := by
  induction ms generalizing s with
  | nil => exact h
  | cons m rest ih => exact ih (h.step m)

theorem connect_eq_ok {url : Locator} (h : (s.connect url).result = .ok v) :
    (url.volume ≠ "." ∧ url.volume ≠ "..") ∧
      (s.connect url).state.Serves v (Path.join s.root url.volume) url.volume := by
  rcases s.connect_eq url with ⟨c, he⟩ | ⟨hdots, -, ho⟩
  · rw [he] at h
    cases h
  · rw [ho] at h ⊢
    cases h
    refine ⟨hdots, { brick := Path.join s.root url.volume, name := url.volume }, ?_, rfl, rfl⟩
    simp [volume?]

/-! ## Open files -/

variable {f id : Nat}

theorem length_handles_step (s : State) (m : Move) :
    s.handles.length ≤ (s.step m).handles.length := by
  have hkept {keep : Nat → Prop} {s' : State} (h : Changes keep s s') :
      s.handles.length ≤ s'.handles.length := Nat.le_of_eq (by rw [h.handles])
  cases m with
  | connect url => exact hkept (changes_connect s url)
  | setOption u d => exact hkept (changes_setOption s u d)
  | setLogging u sink level => exact hkept (changes_setLogging s u sink level)
  | openFile u path =>
      rcases s.openFile_eq u path with ⟨-, hh⟩ | ⟨id, -, hh⟩
      · exact Nat.le_of_eq (congrArg List.length hh.symm)
      · rw [step, hh, List.length_append]
        omega
  | lock g kind =>
      rw [step, lock]
      split
      · exact Nat.le_refl _
      · split <;> simp [setHandle]
  | read g size =>
      rw [step, read]
      split <;> simp [setHandle, unknown]
  | close g =>
      rw [step, close]
      split <;> simp [setHandle, drop, unknown]
  | drop g => simp [step, drop, setHandle]
  | finish u => exact hkept (changes_finish s u)
  | put path contents => exact hkept (changes_put s path contents)
  | remove path => exact hkept (changes_remove s path)

/-- An open file has been given out, and it is of the file with this identity if it is still
open. -/
structure Given (s : State) (f id : Nat) : Prop where
  given : f < s.handles.length
  file : ∀ h, s.handle? f = some h → h.file = id

theorem Given.of_handle? {h : Handle} (hf : s.handle? f = some h) : s.Given f h.file where
  given := lt_of_handle? hf
  file := by
    intro x hx
    rw [hf, Option.some.injEq] at hx
    rw [hx]

theorem Given.step (hg : s.Given f id) (m : Move) : (s.step m).Given f id where
  given := Nat.lt_of_lt_of_le hg.given (s.length_handles_step m)
  file := by
    have ht := s.touches_step m f
    generalize (s.step m).handle? f = x at ht
    intro h hh
    cases ht with
    | other => exact hg.file h hh
    | opened hf => exact absurd hf (Nat.ne_of_lt hg.given)
    | absent | closed | dropped => cases hh
    | locked hx | refused hx | read hx =>
        have hfile := hg.file _ hx
        cases hh
        exact hfile

theorem Given.run (hg : s.Given f id) (ms : List Move) : (s.run ms).Given f id := by
  induction ms generalizing s with
  | nil => exact hg
  | cons m rest ih => exact ih (hg.step m)

/-- From here on, whatever is read through an open file is a stretch of the file with this
identity. -/
def Reaches (s : State) (f id : Nat) : Prop :=
  ∀ ms size bytes, ((s.run ms).read f size).result = .ok bytes →
    ∃ start stop, bytes = ((s.run ms).tree.contents id).stretch start stop

theorem read_eq_ok {size : Nat} {bytes : List UInt8} (h : (s.read f size).result = .ok bytes) :
    ∃ x, s.handle? f = some x ∧ bytes = s.stretch x size := by
  unfold read at h
  split at h
  · cases h
  · rename_i x hx
    exact ⟨x, hx, (Except.ok.inj h).symm⟩

theorem Given.reaches (hg : s.Given f id) : s.Reaches f id := by
  intro ms size bytes h
  obtain ⟨x, hx, rfl⟩ := read_eq_ok h
  have hfile : x.file = id := (hg.run ms).file x hx
  rw [stretch, hfile]
  exact ⟨_, _, rfl⟩

end LockedCat.Export.State
