import LockedCat.Proofs.Export.Locks
import LockedCat.Proofs.Protocol

/-!
# Who holds which lock

Everything that clients do to an export: single moves, files that are opened in place of others,
copies and whole runs of the command, in any order. Main statement: whatever was done, a lock is
held through an open file, a file is locked by one writer or by readers only, and only taking a
lock, closing and dropping change who holds what, each for its own open file alone.
-/

namespace LockedCat.Export

namespace State

variable {s s' : State} {w w' : World State} {as bs : List (Act Nat Nat)} {f g : Nat}

/-! ## What passes by an open file -/

theorem handle?_of_length_le (hf : s.handles.length ≤ f) : s.handle? f = none := by
  simp [handle?, List.getElem?_eq_none hf]

theorem openFile_eq (s : State) (v : Nat) (path : String) :
    (∃ e, (s.openFile v path).result = .error e) ∧
        (s.openFile v path).state.handles = s.handles ∨
      ∃ id, (s.openFile v path).result = .ok s.handles.length ∧
        (s.openFile v path).state.handles =
          s.handles ++ [some { file := id, path := path, volume := v }] := by
  unfold openFile
  split
  · exact .inl ⟨⟨_, rfl⟩, rfl⟩
  · split
    · exact .inl ⟨⟨_, rfl⟩, rfl⟩
    · simp only
      split
      · exact .inl ⟨⟨_, rfl⟩, handles_say ..⟩
      · exact .inl ⟨⟨_, rfl⟩, handles_say ..⟩
      · rename_i id _
        exact .inr ⟨id, by simp, by simp⟩

theorem handle?_openFile_of_ne {v : Nat} {path : String}
    (hg : (s.openFile v path).result ≠ .ok g) :
    (s.openFile v path).state.handle? g = s.handle? g := by
  rcases s.openFile_eq v path with ⟨-, hh⟩ | ⟨id, hr, hh⟩
  · exact handle?_congr hh g
  · have hne : g ≠ s.handles.length := by
      intro he
      rw [hr, he] at hg
      exact hg rfl
    have hadd := handle?_append s g (some { file := id, path := path, volume := v })
    rw [if_neg hne] at hadd
    rw [← hadd]
    exact handle?_congr hh g

theorem handle?_of_openFile_eq_ok {v : Nat} {path : String}
    (h : (s.openFile v path).result = .ok f) : s.handle? f = none := by
  rcases s.openFile_eq v path with ⟨⟨e, he⟩, -⟩ | ⟨id, hr, -⟩
  · rw [he] at h
    cases h
  · rw [hr, Except.ok.injEq] at h
    exact handle?_of_length_le (by omega)

theorem handle?_step_of_ne {m : Move} (hf : m.file? ≠ some f)
    (ho : ∀ v path, m ≠ .openFile v path) : (s.step m).handle? f = s.handle? f := by
  have ht := s.touches_step m f
  generalize (s.step m).handle? f = x at ht
  cases ht with
  | other => rfl
  | opened => exact absurd rfl (ho _ _)
  | absent h => exact absurd h hf
  | locked | refused | read | closed | dropped => exact absurd rfl hf

theorem handle?_run_of_ne {ms : List Move}
    (h : ∀ m ∈ ms, m.file? ≠ some f ∧ ∀ v path, m ≠ .openFile v path) :
    (s.run ms).handle? f = s.handle? f := by
  induction ms generalizing s with
  | nil => rfl
  | cons m rest ih =>
      obtain ⟨hne, hopen⟩ := h m (List.mem_cons_self ..)
      rw [run_cons, ih fun n hn => h n (List.mem_cons_of_mem m hn), handle?_step_of_ne hne hopen]

/-- None of these acts is made with this open file, and none opens a file. -/
def PassBy (f : Nat) (as : List (Act Nat Nat)) : Prop :=
  ∀ m ∈ as.filterMap act?, m.file? ≠ some f ∧ ∀ v path, m ≠ .openFile v path

namespace PassBy

theorem single {a : Act Nat Nat} {m : Move} (ha : act? a = some m) (hf : m.file? ≠ some f)
    (ho : ∀ v path, m ≠ .openFile v path) : PassBy f [a] := by
  intro n hn
  rw [List.filterMap_cons_some ha, List.filterMap_nil, List.mem_singleton] at hn
  rw [hn]
  exact ⟨hf, ho⟩

theorem append (h : PassBy f as) (h' : PassBy f bs) : PassBy f (as ++ bs) := by
  intro m hm
  rw [List.filterMap_append, List.mem_append] at hm
  rcases hm with hm | hm
  · exact h m hm
  · exact h' m hm

theorem cons {a : Act Nat Nat} (h : PassBy f [a]) (h' : PassBy f as) : PassBy f (a :: as) :=
  h.append h'

theorem handle? (h : PassBy f as) (ha : Acts provider w as w') :
    w'.state.handle? f = w.state.handle? f := by
  rw [run_of_acts ha]
  exact handle?_run_of_ne h

theorem of_directives {v : Nat} {ds : List Directive} {r : Except Error Unit}
    (h : DirectiveTrace v ds as r) : PassBy f as := by
  have hset (d : Directive) (answer : Except Chain Unit) : PassBy f [.setOption v d answer] :=
    .single rfl nofun nofun
  induction h with
  | done => exact nofun
  | accepted _ ih => exact (hset _ _).cons ih
  | rejected => exact hset _ _

end PassBy

/-! ## Calls with one open file -/

theorem file?_of_transfer {size copied : Nat} {r : Except Chain Nat}
    (h : TransferTrace f size copied as r) : ∀ m ∈ as.filterMap act?, m.file? = some f := by
  intro m hm
  obtain ⟨a, ha, hact⟩ := List.mem_filterMap.mp hm
  have hcall : a.isCall := by cases a <;> first | rfl | cases hact
  obtain ⟨size, r, rfl⟩ := h.calls a (List.mem_filter.mpr ⟨ha, hcall⟩)
  cases hact
  rfl

theorem file?_of_lock {path target : String} {chunk : Nat} {r : Except Error Nat}
    (h : LockTrace f path target chunk as r) : ∀ m ∈ as.filterMap act?, m.file? = some f := by
  intro m hm
  cases h with
  | unlocked =>
      rw [List.mem_singleton.mp hm]
      rfl
  | broken ht | copied ht =>
      rcases List.mem_cons.mp hm with rfl | hm
      · rfl
      · exact file?_of_transfer ht m hm

/-- An open file stays with the session that opened it. -/
theorem volume_step {m : Move} {v : Nat} (hm : m.file? = some f)
    (hv : ∀ h, s.handle? f = some h → h.volume = v) :
    ∀ h, (s.step m).handle? f = some h → h.volume = v := by
  intro h hh
  have ht := s.touches_step m f
  rw [hh] at ht
  generalize hx : some h = x at ht
  cases ht with
  | other hne => exact absurd hm hne
  | opened => cases hm
  | absent | closed | dropped => cases hx
  | locked ho | refused ho | read ho =>
      have := hv _ ho
      cases hx
      exact this

theorem run_of_file {P : State → Prop} {v : Nat}
    (hfile : ∀ s m, P s → m.file? = some f → (∀ h, s.handle? f = some h → h.volume = v) →
      P (s.step m))
    {ms : List Move} (hms : ∀ m ∈ ms, m.file? = some f) (hs : P s)
    (hv : ∀ h, s.handle? f = some h → h.volume = v) : P (s.run ms) := by
  induction ms generalizing s with
  | nil => exact hs
  | cons m rest ih =>
      have hm := hms m (List.mem_cons_self ..)
      exact ih (fun n hn => hms n (List.mem_cons_of_mem m hn)) (hfile s m hs hm hv)
        (volume_step hm hv)

/-! ## Copies and commands -/

theorem openFile_of_acts {v : Nat} {path : String} {answer : Except IoError Nat}
    (h : Acts provider w [.openFile v path answer] w') :
    (w.state.openFile v path).result = answer ∧
      w'.state = (w.state.openFile v path).state := by
  refine ⟨?_, run_of_acts h⟩
  obtain ⟨w₁, w₂, hr, ho, -⟩ := h.uncons
  have ho : w₁.openFile provider v path = (answer, w₂) := ho
  have hstate : w₁.state = w.state := run_of_acts hr
  rw [← hstate]
  exact congrArg (·.1) ho

/-- A copy is an open and then calls with the file that was opened, of which the last one closes
it. -/
theorem moves_of_copy {v : Nat} {path target : String} {chunk : Nat} {r : Except Error Nat}
    (ht : CopyTrace v path target chunk as r) (h : Acts provider w as w') :
    (∃ e, (w.state.openFile v path).result = .error e) ∧
        w'.state = (w.state.openFile v path).state ∨
      ∃ f ms, (w.state.openFile v path).result = .ok f ∧ (∀ m ∈ ms, m.file? = some f) ∧
        w'.state = (((w.state.openFile v path).state.run ms).close f).state := by
  have hopened {f : Nat} {as : List (Act Nat Nat)} {r : Except Error Nat}
      {answer : Except IoError Unit} (hl : LockTrace f path target chunk as r)
      (h : Acts provider w (.openFile v path (.ok f) :: (as ++ [.close f answer])) w') :
      ∃ f ms, (w.state.openFile v path).result = .ok f ∧ (∀ m ∈ ms, m.file? = some f) ∧
        w'.state = (((w.state.openFile v path).state.run ms).close f).state := by
    rw [← List.singleton_append] at h
    obtain ⟨w₁, ho, h⟩ := h.unappend
    obtain ⟨w₂, has, hc⟩ := h.unappend
    obtain ⟨hresult, hstate⟩ := openFile_of_acts ho
    have hclose : w'.state = (w₂.state.close f).state := run_of_acts hc
    rw [run_of_acts has, hstate] at hclose
    exact ⟨f, _, hresult, file?_of_lock hl, hclose⟩
  cases ht with
  | unopened =>
      obtain ⟨hresult, hstate⟩ := openFile_of_acts h
      exact .inl ⟨⟨_, hresult⟩, hstate⟩
  | closed hl | unclosed hl => exact .inr (hopened hl h)

/-- The file that a copy opens is closed by it, and no other is touched. -/
theorem handle?_of_copy {v : Nat} {path target : String} {chunk : Nat} {r : Except Error Nat}
    (ht : CopyTrace v path target chunk as r) (h : Acts provider w as w') (g : Nat) :
    w'.state.handle? g = w.state.handle? g := by
  rcases moves_of_copy ht h with ⟨⟨e, he⟩, hstate⟩ | ⟨f, ms, hopen, hms, hstate⟩
  · rw [hstate, handle?_openFile_of_ne (by rw [he]; nofun)]
  · rw [hstate, handle?_close]
    by_cases hg : g = f
    · rw [if_pos hg, hg, handle?_of_openFile_eq_ok hopen]
    · have hother : ∀ m ∈ ms, m.file? ≠ some g ∧ ∀ u path, m ≠ .openFile u path := by
        intro m hm
        have hfile := hms m hm
        refine ⟨?_, ?_⟩
        · rw [hfile]
          exact fun he => hg (Option.some.inj he).symm
        · rintro u path rfl
          cases hfile
      have hne : (w.state.openFile v path).result ≠ .ok g := by
        rw [hopen]
        exact fun he => hg (Except.ok.inj he).symm
      rw [if_neg hg, handle?_run_of_ne hother, handle?_openFile_of_ne hne]

/-- What an open keeps and every call with a file of the same session, a copy keeps. -/
theorem copy_invariant {P : State → Prop} {v : Nat} {path : String}
    (hopen : ∀ s, P s → P (s.openFile v path).state)
    (hfile : ∀ s m f, P s → m.file? = some f → (∀ h, s.handle? f = some h → h.volume = v) →
      P (s.step m))
    (target : String) (chunk : Nat) (hw : P w.state) :
    P (Copy.copy provider v path target chunk w).2.state := by
  obtain ⟨as, h, ht⟩ := copy_trace provider v path target chunk w
  rcases moves_of_copy ht h with ⟨-, hstate⟩ | ⟨f, ms, hresult, hms, hstate⟩
  · rw [hstate]
    exact hopen _ hw
  · have hv : ∀ x, (w.state.openFile v path).state.handle? f = some x → x.volume = v := by
      intro x hx
      rcases w.state.openFile_eq v path with ⟨⟨e, he⟩, -⟩ | ⟨id, hr, hh⟩
      · rw [he] at hresult
        cases hresult
      · rw [hr, Except.ok.injEq] at hresult
        rw [handle?, hh, ← hresult, List.getElem?_concat_length] at hx
        cases hx
        rfl
    have hcalls : ∀ m ∈ ms ++ [.close f], m.file? = some f := by
      intro m hm
      rcases List.mem_append.mp hm with hm | hm
      · exact hms m hm
      · rw [List.mem_singleton.mp hm]
        rfl
    have hdone := run_of_file (fun s m => hfile s m f) hcalls (hopen _ hw) hv
    rw [run_append] at hdone
    rw [hstate]
    exact hdone

theorem handle?_of_configured {v : Nat} {c : Command} {url : Locator} {debug : Bool}
    {chunk : Nat} {r : Except Error Nat} (ht : ConfiguredTrace v c url debug chunk as r)
    (h : Acts provider w as w') (g : Nat) : w'.state.handle? g = w.state.handle? g := by
  have hlog (answer : Except Chain Unit) :
      PassBy g [.setLogging v Config.debugLog .debug answer] := .single rfl nofun nofun
  cases ht with
  | rejected hd => exact (PassBy.of_directives hd).handle? h
  | unlogged hd => exact ((PassBy.of_directives hd).append (hlog _)).handle? h
  | logged hd _ hc =>
      rw [List.append_cons] at h
      obtain ⟨w₁, h₁, h₂⟩ := h.unappend
      rw [handle?_of_copy hc h₂, ((PassBy.of_directives hd).append (hlog _)).handle? h₁]
  | quiet hd _ hc =>
      obtain ⟨w₁, h₁, h₂⟩ := h.unappend
      rw [handle?_of_copy hc h₂, (PassBy.of_directives hd).handle? h₁]

theorem handle?_of_trace {c : Command} {ctx : Context Nat} {r : Except Error Nat}
    (ht : c.Trace ctx as r) (h : Acts provider w as w') (g : Nat) :
    w'.state.handle? g = w.state.handle? g := by
  cases ht with
  | within _ _ hc => exact handle?_of_copy hc h g
  | @alone url _ _ _ _ ha =>
      have hconnect (answer : Except Chain Nat) : PassBy g [.connect url answer] :=
        .single rfl nofun nofun
      cases ha with
      | unconnected => exact (hconnect _).handle? h
      | @connected v _ _ x hc =>
          have hfinish : PassBy g [.finish v x] := .single rfl nofun nofun
          rw [← List.singleton_append] at h
          obtain ⟨w₁, h₁, h⟩ := h.unappend
          obtain ⟨w₂, h₂, h₃⟩ := h.unappend
          rw [hfinish.handle? h₃, handle?_of_configured hc h₂, (hconnect _).handle? h₁]

theorem handle?_copy (v : Nat) (path target : String) (chunk : Nat) (w : World State) (g : Nat) :
    (Copy.copy provider v path target chunk w).2.state.handle? g = w.state.handle? g := by
  obtain ⟨as, h, ht⟩ := copy_trace provider v path target chunk w
  exact handle?_of_copy ht h g

/-! ## What a command does to the files -/

theorem modest_of_act? {a : Act Nat Nat} {m : Move} (ha : act? a = some m)
    (hl : ∀ v sink level r, a = .setLogging v sink level r → sink = Config.debugLog) :
    m.modest := by
  cases a <;> cases ha
  case setLogging v sink level r => exact decide_eq_true (hl v sink level r rfl)
  all_goals rfl

theorem modest_of_copy {v : Nat} {path target : String} {chunk : Nat} {r : Except Error Nat}
    (ht : CopyTrace v path target chunk as r) : ∀ m ∈ as.filterMap act?, m.modest := by
  intro m hm
  obtain ⟨a, ha, hact⟩ := List.mem_filterMap.mp hm
  refine modest_of_act? hact fun u sink level r he => ?_
  subst he
  have hrank := ht.calls.rank_mem _ (List.mem_filter.mpr ⟨ha, rfl⟩)
  simp [Act.rank] at hrank

theorem modest_of_trace {c : Command} {ctx : Context Nat} {r : Except Error Nat}
    (ht : c.Trace ctx as r) : ∀ m ∈ as.filterMap act?, m.modest := by
  cases ht with
  | within _ _ hc => exact modest_of_copy hc
  | alone _ _ halone =>
      intro m hm
      obtain ⟨a, ha, hact⟩ := List.mem_filterMap.mp hm
      refine modest_of_act? hact fun u sink level r he => ?_
      subst he
      exact halone.calls.sink_of_setLogging (List.mem_filter.mpr ⟨ha, rfl⟩)

/-! ## Holders -/

/-- A lock of this kind on the file with this identity is held through an open file. -/
def Holds (s : State) (f id : Nat) (kind : LockKind) : Prop :=
  ∃ h, s.handle? f = some h ∧ h.file = id ∧ h.lock = some kind

theorem holds_congr (h : s'.handle? f = s.handle? f) (id : Nat) (kind : LockKind) :
    s'.Holds f id kind ↔ s.Holds f id kind := by
  unfold Holds
  rw [h]

theorem not_holds_of_none (h : s.handle? f = none) (id : Nat) (kind : LockKind) :
    ¬s.Holds f id kind := by
  rintro ⟨x, hx, -⟩
  rw [h] at hx
  cases hx

/-- How locks are shared out: an open file holds one at most, nothing else holds any, and a file
has one writer that holds a lock on it or only readers. -/
structure Exclusive (s : State) : Prop where
  one : ∀ f id id' k k', s.Holds f id k → s.Holds f id' k' → id = id' ∧ k = k'
  live : ∀ f id k, s.Holds f id k → (s.handle? f).isSome
  alone : ∀ id, (∃ f, s.Holds f id .write ∧ ∀ g k, g ≠ f → ¬s.Holds g id k) ∨
    ∀ g k, s.Holds g id k → k = .read

theorem Compatible.exclusive (h : s.Compatible) : s.Exclusive where
  one f id id' k k' := by
    rintro ⟨x, hx, rfl, hk⟩ ⟨y, hy, rfl, hk'⟩
    rw [hx, Option.some.injEq] at hy
    subst hy
    rw [hk, Option.some.injEq] at hk'
    exact ⟨rfl, hk'⟩
  live f id k := by
    rintro ⟨x, hx, -⟩
    rw [hx]
    rfl
  alone id := by
    by_cases hw : ∃ f, s.Holds f id .write
    · obtain ⟨f, x, hx, rfl, hk⟩ := hw
      refine .inl ⟨f, ⟨x, hx, rfl, hk⟩, ?_⟩
      rintro g k hg ⟨y, hy, hfile, hk'⟩
      -- A lock for writing goes with no other on the file.
      have := h f g x y .write k (Ne.symm hg) hx hy hfile.symm hk hk'
      cases k <;> cases this
    · refine .inr fun g k hg => ?_
      cases k with
      | read => rfl
      | write => exact absurd ⟨g, hg⟩ hw

/-! ## What single moves do to locks -/

theorem lock_eq_ok_iff {kind : LockKind} :
    (s.lock f kind).result = .ok () ↔ ∃ h, s.handle? f = some h ∧ s.isFree f h kind := by
  unfold lock
  cases hh : s.handle? f with
  | none => simp [unknown]
  | some h => by_cases hfree : s.isFree f h kind <;> simp [hfree]

theorem lock_state_of_error {kind : LockKind} {e : IoError}
    (h : (s.lock f kind).result = .error e) : (s.lock f kind).state = s := by
  unfold lock at h ⊢
  split at h
  · rfl
  · split at h
    · cases h
    · rename_i hfree
      rw [if_neg hfree]

theorem handle?_lock {kind : LockKind} {h : Handle} (hh : s.handle? f = some h)
    (hfree : s.isFree f h kind) (g : Nat) :
    (s.lock f kind).state.handle? g =
      if g = f then some { h with lock := some kind } else s.handle? g := by
  have hlt := lt_of_handle? hh
  simp only [lock, hh, hfree, if_true, handle?_setHandle, handles_say]
  by_cases hg : g = f
  · simp [hg, hlt]
  · simp only [hg, false_and, if_false]
    exact handle?_congr (handles_say ..) g

/-- A lock that is granted takes the place of the one that the open file held, and no other is
touched. -/
theorem holds_lock {kind : LockKind} {h : Handle} (hh : s.handle? f = some h)
    (hfree : s.isFree f h kind) (g id : Nat) (k : LockKind) :
    (s.lock f kind).state.Holds g id k ↔
      if g = f then id = h.file ∧ k = kind else s.Holds g id k := by
  have hx := handle?_lock hh hfree g
  by_cases hg : g = f
  · rw [if_pos hg] at hx ⊢
    unfold Holds
    rw [hx]
    constructor
    · rintro ⟨x, hx, rfl, hk⟩
      cases hx
      exact ⟨rfl, (Option.some.inj hk).symm⟩
    · rintro ⟨rfl, rfl⟩
      exact ⟨_, rfl, rfl, rfl⟩
  · rw [if_neg hg] at hx ⊢
    exact holds_congr hx id k

theorem holds_drop (s : State) (f g id : Nat) (k : LockKind) :
    (s.drop f).Holds g id k ↔ g ≠ f ∧ s.Holds g id k := by
  have hx := handle?_drop s g f
  by_cases hg : g = f
  · rw [if_pos hg] at hx
    exact ⟨fun h => absurd h (not_holds_of_none hx id k), fun h => absurd hg h.1⟩
  · rw [if_neg hg] at hx
    rw [holds_congr hx, and_iff_right hg]

theorem holds_close (s : State) (f g id : Nat) (k : LockKind) :
    (s.close f).state.Holds g id k ↔ g ≠ f ∧ s.Holds g id k := by
  rw [← holds_drop]
  refine holds_congr ?_ id k
  rw [handle?_close, handle?_drop]

end State

/-- Moves that change who holds which lock. -/
def Move.relocks : Move → Bool
  | .lock .. | .close _ | .drop _ => true
  | _ => false

namespace State

variable {s : State}

theorem holds_step {m : Move} (hm : m.relocks = false) (f id : Nat) (k : LockKind) :
    (s.step m).Holds f id k ↔ s.Holds f id k := by
  have ht := s.touches_step m f
  generalize hx : (s.step m).handle? f = x at ht
  cases ht with
  | other => exact holds_congr hx id k
  | absent _ hnone => exact holds_congr (hx.trans hnone.symm) id k
  | opened hf =>
      -- A file that was just opened is not locked yet, and there was none in its place.
      constructor
      · rintro ⟨y, hy, -, hk⟩
        rw [hx] at hy
        cases hy
        cases hk
      · intro h
        exact absurd h (not_holds_of_none (handle?_of_length_le (Nat.le_of_eq hf.symm)) id k)
  | locked | refused | closed | dropped => cases hm
  | @read size h hh =>
      constructor
      · rintro ⟨y, hy, hfile, hk⟩
        rw [hx] at hy
        cases hy
        exact ⟨h, hh, hfile, hk⟩
      · rintro ⟨y, hy, hfile, hk⟩
        rw [hh] at hy
        cases hy
        exact ⟨_, hx, hfile, hk⟩

end State

/-! ## Deeds -/

/-- What clients do to an export: single moves, a file that is opened in place of an older one,
which is dropped if that succeeds, copies, and runs of the command. -/
inductive Deed where
  | move (move : Move)
  | replace (file volume : Nat) (path : String)
  | copy (volume : Nat) (path target : String) (chunk : Nat) (sink : Sink)
  | run (words : List Text.Glyphs) (connected : Bool) (ctx : Context Nat) (sink : Sink)

namespace State

variable {s : State}

def perform (s : State) : Deed → State
  | .move m => s.step m
  | .replace f v path =>
      match s.openFile v path with
      | ⟨s, .ok _, _⟩ => s.drop f
      | ⟨s, .error _, _⟩ => s
  | .copy v path target chunk sink =>
      (Copy.copy provider v path target chunk { state := s, sink := sink }).2.state
  | .run words connected ctx sink =>
      (Command.run provider words connected ctx { state := s, sink := sink }).2.2.state

def performed (s : State) (deeds : List Deed) : State := deeds.foldl perform s

/-- A command whose file cannot be named in its context does nothing. -/
theorem execute_of_not_suits {c : Command} {ctx : Context Nat} (h : ¬c.Suits ctx)
    (w : World State) :
    (c.execute provider ctx w).1 = .failure .parse ∧
      (c.execute provider ctx w).2.sink = w.sink ∧
      (c.execute provider ctx w).2.state = w.state := by
  obtain ⟨message, he⟩ := c.execute_of_not_suits provider h w
  rw [he]
  exact ⟨rfl, rfl, rfl⟩

/-- What a run of the command does to an export is a run of moves, and it leaves every open file
as it was. -/
theorem run_command (words : List Text.Glyphs) (connected : Bool) (ctx : Context Nat)
    (w : World State) :
    (∃ ms, (Command.run provider words connected ctx w).2.2.state = w.state.run ms ∧
        ∀ m ∈ ms, m.modest) ∧
      ∀ g, (Command.run provider words connected ctx w).2.2.state.handle? g =
        w.state.handle? g := by
  unfold Command.run
  cases Command.parse words connected with
  | error e => exact ⟨⟨[], rfl, nofun⟩, fun _ => rfl⟩
  | ok c =>
      by_cases hc : c.Suits ctx
      · obtain ⟨as, r, h, ht, -⟩ := c.execute_trace provider hc w
        exact ⟨⟨_, run_of_acts h, modest_of_trace ht⟩, handle?_of_trace ht h⟩
      · obtain ⟨-, -, hstate⟩ := execute_of_not_suits hc w
        exact ⟨⟨[], hstate, nofun⟩, fun g => congrArg (·.handle? g) hstate⟩

/-- Whatever is done is a run of moves, and only single moves can do more to the files than what
is said of it. -/
theorem exists_run_eq_perform (s : State) (d : Deed) :
    ∃ ms, s.perform d = s.run ms ∧ ((∃ m, d = .move m ∧ ms = [m]) ∨ ∀ m ∈ ms, m.modest) := by
  cases d with
  | move m => exact ⟨[m], rfl, .inl ⟨m, rfl, rfl⟩⟩
  | replace f v path =>
      cases hr : s.openFile v path with
      | mk s' result notes =>
          have hstate : s.step (.openFile v path) = s' := congrArg (·.state) hr
          cases result with
          | ok g =>
              refine ⟨[.openFile v path, .drop f], ?_, .inr (by simp [Move.modest])⟩
              rw [run_cons, hstate]
              simp [perform, hr, step]
          | error e =>
              refine ⟨[.openFile v path], ?_, .inr (by simp [Move.modest])⟩
              rw [run_cons, hstate]
              simp [perform, hr]
  | copy v path target chunk sink =>
      obtain ⟨as, h, ht⟩ := copy_trace provider v path target chunk { state := s, sink := sink }
      exact ⟨_, run_of_acts h, .inr (modest_of_copy ht)⟩
  | run words connected ctx sink =>
      obtain ⟨ms, hms, hmodest⟩ := (run_command words connected ctx { state := s, sink := sink }).1
      exact ⟨ms, hms, .inr hmodest⟩

theorem Compatible.performed (h : s.Compatible) (deeds : List Deed) :
    (s.performed deeds).Compatible := by
  induction deeds generalizing s with
  | nil => exact h
  | cons d rest ih =>
      obtain ⟨ms, hms, -⟩ := s.exists_run_eq_perform d
      have hd : (s.perform d).Compatible := by
        rw [hms]
        exact h.run ms
      exact ih hd

theorem holds_replace (s : State) (f v : Nat) (path : String) (g id : Nat) (k : LockKind) :
    (s.perform (.replace f v path)).Holds g id k ↔
      s.Holds g id k ∧ (g = f → ∃ e, (s.openFile v path).result = .error e) := by
  have hopen : (s.openFile v path).state.Holds g id k ↔ s.Holds g id k :=
    holds_step (m := .openFile v path) rfl g id k
  cases hr : s.openFile v path with
  | mk s' result notes =>
      rw [hr] at hopen
      cases result with
      | ok f' =>
          have hp : s.perform (.replace f v path) = s'.drop f := by simp [perform, hr]
          rw [hp, holds_drop, hopen]
          simp [and_comm]
      | error e =>
          have hp : s.perform (.replace f v path) = s' := by simp [perform, hr]
          rw [hp, hopen]
          simp

end State

/-- What clients do that changes who holds which lock. -/
def Deed.relocks : Deed → Bool
  | .move m => m.relocks
  | .replace .. => true
  | .copy .. | .run .. => false

namespace State

theorem holds_perform {s : State} {d : Deed} (hd : d.relocks = false) (g id : Nat)
    (k : LockKind) : (s.perform d).Holds g id k ↔ s.Holds g id k := by
  cases d with
  | move m => exact holds_step hd g id k
  | replace => cases hd
  | copy v path target chunk sink => exact holds_congr (handle?_copy ..) id k
  | run words connected ctx sink => exact holds_congr ((run_command ..).2 g) id k

/-- Whatever clients do to an export, its locks stay shared out as they have to be, and a lock
goes only by what is done to its own open file. -/
theorem performed_locks (root : String) (tree : Tree) (now : Moment) (network : Network)
    (beyond : String → Except IoError Destination) (deeds : List Deed) :
    let s₀ : State := {
      root := root, tree := tree, now := now, network := network, beyond := beyond }
    let s := s₀.performed deeds
    s.Exclusive ∧
    (∀ f kind, match (s.lock f kind).result with
      | .error _ => (s.lock f kind).state = s
      | .ok () => ∃ h, s.handle? f = some h ∧ ∀ g id k,
          (s.lock f kind).state.Holds g id k ↔
            if g = f then id = h.file ∧ k = kind else s.Holds g id k) ∧
    (∀ f kind, (s.lock f kind).result = .ok () ↔ ∃ h, s.handle? f = some h ∧
      ∀ g k, g ≠ f → s.Holds g h.file k → excludes kind k = false) ∧
    (∀ f g id k, (s.close f).state.Holds g id k ↔ g ≠ f ∧ s.Holds g id k) ∧
    (∀ f g id k, (s.drop f).Holds g id k ↔ g ≠ f ∧ s.Holds g id k) ∧
    (∀ f v path g id k, (s.perform (.replace f v path)).Holds g id k ↔
      s.Holds g id k ∧ (g = f → ∃ e, (s.openFile v path).result = .error e)) ∧
    (∀ v g id k, (s.finish v).state.Holds g id k ↔ s.Holds g id k) ∧
    ∀ d : Deed, d.relocks = false → ∀ g id k, (s.perform d).Holds g id k ↔ s.Holds g id k := by
  intro s₀ s
  have hfresh : s₀.Compatible := by
    intro f g h h' k k' _ hf
    rw [handle?_of_length_le (Nat.zero_le f)] at hf
    cases hf
  refine ⟨(hfresh.performed deeds).exclusive, fun f kind => ?_, fun f kind => ?_, s.holds_close,
    s.holds_drop, s.holds_replace, fun v g id k => holds_step (m := .finish v) rfl g id k,
    fun d hd g id k => holds_perform hd g id k⟩
  · split
    · rename_i h
      exact lock_state_of_error h
    · rename_i h
      obtain ⟨x, hx, hfree⟩ := lock_eq_ok_iff.mp h
      exact ⟨x, hx, holds_lock hx hfree⟩
  · rw [lock_eq_ok_iff]
    constructor
    · rintro ⟨x, hx, hfree⟩
      refine ⟨x, hx, ?_⟩
      rintro g k hg ⟨y, hy, hfile, hk⟩
      exact isFree_iff.mp hfree g y k hg hy hfile hk
    · rintro ⟨x, hx, hall⟩
      refine ⟨x, hx, isFree_iff.mpr ?_⟩
      intro g y k hg hy hfile hk
      exact hall g k hg ⟨y, hy, hfile, hk⟩

end State

end LockedCat.Export
