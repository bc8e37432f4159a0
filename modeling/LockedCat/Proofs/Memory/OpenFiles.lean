import LockedCat.Proofs.Memory.Moves

/-!
# Files that are open side by side

Any number of files of a volume in memory are open at once, and each is locked and read when its
holder likes. Main statement: whatever is done in between, an open file gives nothing before it is
locked, and from then on the beginning of what it held when it was opened, up to its end or to where
reads were told to fail; and it gives the same if nothing is done with the other open files.
-/

namespace LockedCat.Memory

/-! ## What an open file gives -/

/-- These bytes are the beginning of what a file holds, as far as that is readable. -/
structure Begins (limit : Option Nat) (data : Contents) (bytes : List UInt8) : Prop where
  eq : bytes = data.stretch 0 bytes.length
  le : bytes.length ≤ readable limit data

namespace Begins

variable {limit : Option Nat} {data : Contents} {bytes : List UInt8} {stop : Nat}

theorem nil (limit : Option Nat) (data : Contents) : Begins limit data [] :=
  ⟨(Contents.stretch_eq_nil (Nat.le_refl 0)).symm, Nat.zero_le _⟩

theorem isPrefix (h : Begins limit data bytes) : bytes <+: data.toList := by
  rw [h.eq, Contents.stretch_eq, List.drop_zero]
  exact List.take_prefix _ _

theorem length_append (hstop : bytes.length ≤ stop) (hle : stop ≤ readable limit data) :
    (bytes ++ data.stretch bytes.length stop).length = stop := by
  have := readable_le limit data
  rw [List.length_append, Contents.length_stretch]
  omega

theorem append (h : Begins limit data bytes) (hstop : bytes.length ≤ stop)
    (hle : stop ≤ readable limit data) :
    Begins limit data (bytes ++ data.stretch bytes.length stop) := by
  constructor
  · rw [length_append hstop hle]
    calc bytes ++ data.stretch bytes.length stop
      _ = data.stretch 0 bytes.length ++ data.stretch bytes.length stop := by rw [← h.eq]
      _ = data.stretch 0 stop := data.stretch_append (Nat.zero_le _) hstop
  · rw [length_append hstop hle]
    exact hle

theorem eq_toList_iff (h : Begins limit data bytes) :
    bytes = data.toList ↔ bytes.length = data.size := by
  constructor
  · intro he
    rw [he, Array.length_toList]
  · intro hlen
    exact h.isPrefix.eq_of_length (hlen.trans Array.length_toList.symm)

end Begins

/-- So much of what an open file holds was given, under its lock or before one was taken. -/
structure Handle.Stands (data : Contents) (bytes : List UInt8) (locked : Bool) (x : Handle) :
    Prop where
  contents : x.contents = data
  position : x.position = bytes.length
  locked : x.locked = locked

namespace Handle.Stands

variable {limit : Option Nat} {data : Contents} {bytes : List UInt8} {locked : Bool} {x : Handle}

/-- A read is refused before there was a lock. Then it fails where it is to fail, and gives what
comes next if not. -/
theorem read_eq (h : x.Stands data bytes locked) (limit : Option Nat) (size : Nat) :
    x.read limit size =
      if !locked then (.error (.custom .other "read issued before lock"), x)
      else if limit.any (· ≤ bytes.length) then (.error (.errno Errno.inputOutput), x)
      else (.ok (data.stretch bytes.length (min (bytes.length + size) (readable limit data))),
        { x with position := min (bytes.length + size) (readable limit data) }) := by
  rw [Handle.read, Handle.stop_eq, h.locked, h.position, h.contents]

theorem read (h : x.Stands data bytes locked) (hb : Begins limit data bytes) (size : Nat) :
    (x.read limit size).2.Stands data (bytes ++ given (x.read limit size).1) locked ∧
      Begins limit data (bytes ++ given (x.read limit size).1) := by
  have hle := hb.le
  have hstop : bytes.length ≤ min (bytes.length + size) (readable limit data) := by omega
  rw [h.read_eq]
  split
  · simpa [given_error] using ⟨h, hb⟩
  · split
    · simpa [given_error] using ⟨h, hb⟩
    · have hlen := Begins.length_append hstop (Nat.min_le_right _ _)
      exact ⟨⟨h.contents, hlen.symm, h.locked⟩, hb.append hstop (Nat.min_le_right _ _)⟩

theorem given_unlocked (h : x.Stands data bytes false) (limit : Option Nat) (size : Nat) :
    given (x.read limit size).1 = [] := by
  rw [h.read_eq]
  rfl

end Handle.Stands

/-- A file that was opened has given these bytes of what it held then, and if it is still open it
stands there. -/
structure Progress (limit : Option Nat) (data : Contents) (f : Nat) (bytes : List UInt8)
    (locked : Bool) (s : State) : Prop where
  fails : s.failReadAfter = limit
  named : f < s.handles.length
  begins : Begins limit data bytes
  unlocked : locked = false → bytes = []
  stands : ∀ x, s.handle? f = some x → x.Stands data bytes locked

namespace Progress

variable {limit : Option Nat} {data : Contents} {f : Nat} {bytes : List UInt8} {locked : Bool}
  {s : State} {m : Move}

theorem of_openFile {path : String} (hopen : (s.openFile path).result = .ok f) :
    ∃ data, s.contents? path = some data ∧
      (s.openFile path).state.handle? f = some { path := path, contents := data } ∧
      Progress s.failReadAfter data f [] false (s.openFile path).state := by
  unfold State.openFile at hopen ⊢
  split at hopen
  · cases hopen
  · rename_i hf
    rw [if_neg hf]
    cases hd : s.contents? path with
    | none =>
        rw [hd] at hopen
        cases hopen
    | some data =>
        rw [hd] at hopen
        cases hopen
        have hnew : State.handle? { s with
            openHandles := s.openHandles + 1
            handles := s.handles ++ [some { path := path, contents := data }] }
            s.handles.length = some { path := path, contents := data } := by
          simp [State.handle?]
        refine ⟨data, rfl, hnew, rfl, by simp, .nil _ _, fun _ => rfl, fun x hx => ?_⟩
        cases hnew.symm.trans hx
        exact ⟨rfl, rfl, rfl⟩

/-- What a read of a file answers that stands so. -/
theorem result_read (h : Progress limit data f bytes locked s) {x : Handle}
    (hx : s.handle? f = some x) (size : Nat) :
    (s.read f size).result =
      if !locked then .error (.custom .other "read issued before lock")
      else if limit.any (· ≤ bytes.length) then .error (.errno Errno.inputOutput)
      else .ok (data.stretch bytes.length (min (bytes.length + size) (readable limit data))) := by
  rw [State.result_read, hx, h.fails, Option.elim_some, (h.stands x hx).read_eq]
  split
  · rfl
  · split <;> rfl

/-- What is done with a file changes no more than how that file stands. -/
theorem touched (h : Progress limit data f bytes locked s) (hm : m.file? = some f)
    {bytes' : List UInt8} {locked' : Bool} (hb : Begins limit data bytes')
    (hu : locked' = false → bytes' = [])
    (hs : ∀ x, (s.step m).handle? f = some x → x.Stands data bytes' locked') :
    Progress limit data f bytes' locked' (s.step m) where
  fails := (State.touches_step hm).kept.failReadAfter.trans h.fails
  named := (State.touches_step (s := s) hm).length ▸ h.named
  begins := hb
  unlocked := hu
  stands := hs

/-- Nothing more is said of a file that is open no longer. -/
theorem gone (h : Progress limit data f bytes locked s) (hm : m.file? = some f)
    (hx : (s.step m).handle? f = none) : Progress limit data f bytes locked (s.step m) := by
  apply h.touched hm h.begins h.unlocked
  intro x hsome
  rw [hx] at hsome
  cases hsome

theorem read (h : Progress limit data f bytes locked s) (size : Nat) :
    Progress limit data f (bytes ++ given (s.read f size).result) locked
      (s.step (.read f size)) := by
  have hafter : (s.step (.read f size)).handle? f =
      (s.handle? f).map fun x => (x.read limit size).2 := by
    rw [State.step, State.handle?_read, h.fails]
  cases hx : s.handle? f with
  | none =>
      rw [State.result_read, hx, Option.elim_none, given_error, List.append_nil]
      apply h.gone rfl
      rw [hafter, hx, Option.map_none]
  | some x =>
      obtain ⟨hstands, hbegins⟩ := (h.stands x hx).read h.begins size
      rw [State.result_read, hx, Option.elim_some, h.fails]
      apply h.touched rfl hbegins
      · intro hl
        subst hl
        rw [h.unlocked rfl, (h.stands x hx).given_unlocked]
        rfl
      · intro y hy
        rw [hafter, hx, Option.map_some] at hy
        cases hy
        exact hstands

theorem lock (h : Progress limit data f bytes locked s) (kind : LockKind) :
    Progress limit data f bytes (locked || (s.lock f kind).result.isOk)
      (s.step (.lock f kind)) := by
  apply h.touched rfl h.begins
  · intro hl
    exact h.unlocked (Bool.or_eq_false_iff.mp hl).1
  · intro y hy
    rw [State.step, State.handle?_lock] at hy
    obtain ⟨x, hx, rfl⟩ := Option.map_eq_some_iff.mp hy
    obtain ⟨hcontents, hposition, hlocked⟩ := h.stands x hx
    rw [State.isOk_lock, hx, Option.any_some]
    by_cases hforeign : x.path ∈ s.foreignLocks
    · simp only [hforeign, if_true, not_true_eq_false, decide_false, Bool.or_false]
      exact ⟨hcontents, hposition, hlocked⟩
    · simp only [hforeign, if_false, not_false_eq_true, decide_true, Bool.or_true]
      exact ⟨hcontents, hposition, rfl⟩

theorem beside (h : Progress limit data f bytes locked s) (hm : m.file? ≠ some f) :
    Progress limit data f bytes locked (s.step m) := by
  have hspares := State.spares_step hm h.named
  refine ⟨hspares.failReadAfter.trans h.fails, Nat.lt_of_lt_of_le h.named hspares.length, h.begins,
    h.unlocked, fun x hx => ?_⟩
  rw [hspares.handle] at hx
  exact h.stands x hx

theorem step (h : Progress limit data f bytes locked s) (m : Move) :
    Progress limit data f (bytes ++ (s.answer? f m).toList.flatMap given)
      (locked || s.grants f m) (s.step m) := by
  by_cases hm : m.file? = some f
  · cases m with
    | lock g kind =>
        cases hm
        simpa [State.answer?, State.grants] using h.lock kind
    | read g size =>
        cases hm
        simpa [State.answer?, State.grants] using h.read size
    | close g =>
        cases hm
        simpa [State.answer?, State.grants] using h.gone (m := .close f) rfl (s.handle?_close f)
    | drop g =>
        cases hm
        simpa [State.answer?, State.grants] using h.gone (m := .drop f) rfl (s.handle?_drop f)
    | _ => cases hm
  · rw [State.answer?_of_ne hm, State.grants_of_ne hm]
    simpa using h.beside hm

theorem run (h : Progress limit data f bytes locked s) (ms : List Move) :
    Progress limit data f (bytes ++ s.gathered f ms) (locked || s.granted f ms) (s.run ms) := by
  induction ms generalizing bytes locked s with
  | nil => simpa [State.gathered, State.answers, State.granted, State.run] using h
  | cons m rest ih =>
      have hrest := ih (h.step m)
      rw [List.append_assoc, ← State.gathered_cons, Bool.or_assoc] at hrest
      exact hrest

theorem length_le (h : Progress limit data f bytes locked s) {most : Nat}
    (hmost : limit = some most) : bytes.length ≤ most := by
  have hle := h.begins.le
  rw [hmost, readable] at hle
  omega

/-- Without a lock nothing is given and nothing is used up. -/
theorem refused (h : Progress limit data f bytes false s) {x : Handle}
    (hx : s.handle? f = some x) (size : Nat) :
    bytes = [] ∧ (∃ e, (s.read f size).result = .error e) ∧
      (s.step (.read f size)).handle? f = some x := by
  refine ⟨h.unlocked rfl, ⟨_, h.result_read hx size⟩, ?_⟩
  rw [State.step, State.handle?_read, hx, Option.map_some, (h.stands x hx).read_eq]
  rfl

/-- Where no byte is to be given at all, a read without a lock is refused for the lock. -/
theorem failed (h : Progress limit data f bytes locked s) {x : Handle} (hx : s.handle? f = some x)
    {most : Nat} (hmost : limit = some most) (hle : most ≤ bytes.length)
    (hl : locked ∨ 0 < most) (size : Nat) :
    (s.read f size).result = .error (.errno Errno.inputOutput) := by
  have hlocked : locked = true := by
    cases hlock : locked with
    | true => rfl
    | false =>
        have hnil := congrArg List.length (h.unlocked hlock)
        rw [List.length_nil] at hnil
        rcases hl with hl | hl
        · exact absurd (hlock.symm.trans hl) nofun
        · omega
  have hlimit : limit.any (· ≤ bytes.length) := by simpa [hmost] using hle
  rw [h.result_read hx, hlocked, if_pos hlimit]
  rfl

theorem gives (h : Progress limit data f bytes true s) {x : Handle} (hx : s.handle? f = some x)
    (hlt : ∀ most, limit = some most → bytes.length < most) (size : Nat) :
    ∃ more, (s.read f size).result = .ok more ∧ more.length ≤ size ∧
      (more = [] ↔ size = 0 ∨ bytes = data.toList) := by
  have hlimit : ¬limit.any (· ≤ bytes.length) := by
    cases hlim : limit with
    | none => nofun
    | some most =>
        have := hlt most hlim
        simpa using this
  have hend : bytes.length = readable limit data ↔ bytes.length = data.size := by
    have hle := h.begins.le
    cases hlim : limit with
    | none => rfl
    | some most =>
        have := hlt most hlim
        rw [hlim, readable] at hle
        simp only [readable]
        omega
  have hle := h.begins.le
  have hsize := readable_le limit data
  have hresult := h.result_read hx size
  rw [if_neg hlimit] at hresult
  refine ⟨_, hresult, ?_, ?_⟩
  · rw [Contents.length_stretch]
    omega
  · rw [← List.length_eq_zero_iff, Contents.length_stretch, h.begins.eq_toList_iff, ← hend]
    omega

/-- A read stops within the file, where it was asked to or before, and never before it starts. -/
theorem bounds (h : Progress limit data f bytes locked s) {x : Handle} (hx : s.handle? f = some x)
    (size : Nat) :
    x.position ≤ x.stop s.failReadAfter size ∧ x.stop s.failReadAfter size ≤ x.contents.size ∧
      x.stop s.failReadAfter size - x.position ≤ size := by
  obtain ⟨hcontents, hposition, -⟩ := h.stands x hx
  have hle := h.begins.le
  have hsize := readable_le limit data
  rw [x.stop_eq, h.fails, hcontents, hposition]
  omega

end Progress

/-! ## Open files beside one another -/

theorem Kept.symm {m m' : State} (h : Kept m m') : Kept m' m where
  files := h.files.symm
  foreignLocks := h.foreignLocks.symm
  rejectedKey := h.rejectedKey.symm
  failReadAfter := h.failReadAfter.symm
  failClose := h.failClose.symm
  unreachable := h.unreachable.symm
  connectedTo := h.connectedTo.symm
  applied := h.applied.symm
  logging := h.logging.symm
  finishCount := h.finishCount.symm

/-- Two states differ in other open files than this one, and in what is counted. -/
structure Alike (f : Nat) (s s' : State) : Prop where
  kept : Kept s s'
  length : s'.handles.length = s.handles.length
  handle : s'.handle? f = s.handle? f

namespace Alike

variable {f g : Nat} {s s₁ s' : State} {m : Move}

theorem refl (f : Nat) (s : State) : Alike f s s := ⟨.refl s, rfl, rfl⟩

theorem symm (h : Alike f s s') : Alike f s' s := ⟨h.kept.symm, h.length.symm, h.handle.symm⟩

theorem trans (h : Alike f s s₁) (h' : Alike f s₁ s') : Alike f s s' :=
  ⟨h.kept.trans h'.kept, h'.length.trans h.length, h'.handle.trans h.handle⟩

/-- A call that is made with another open file makes no difference. -/
theorem beside (hm : m.file? = some g) (hne : g ≠ f) : Alike f s (s.step m) :=
  have h := State.touches_step (s := s) hm
  ⟨h.kept, h.length, h.handle? hne⟩

/-- Nor does a call that is made with this file, if it leaves the same of it on both sides. -/
theorem within (h : Alike f s s') (hm : m.file? = some f)
    (hh : (s'.step m).handle? f = (s.step m).handle? f) : Alike f (s.step m) (s'.step m) where
  kept := (State.touches_step hm).kept.symm.trans (h.kept.trans (State.touches_step hm).kept)
  length := by
    rw [(State.touches_step hm).length, (State.touches_step hm).length, h.length]
  handle := hh

theorem openFile (h : Alike f s s') (path : String) :
    Alike f (s.openFile path).state (s'.openFile path).state := by
  unfold State.openFile
  rw [h.kept.isFinished, h.kept.contents? path]
  split
  · exact h
  · split
    · exact h
    · refine ⟨(Kept.counts ..).symm.trans (h.kept.trans (.counts ..)), ?_, ?_⟩
      · simp [h.length]
      · simp only [State.handle?, List.getElem?_append, h.length]
        split
        · exact h.handle
        · rfl

theorem setOption (h : Alike f s s') (d : Directive) :
    Alike f (s.setOption d).state (s'.setOption d).state := by
  unfold State.setOption
  rw [h.kept.isFinished]
  split
  · exact h
  · by_cases hkey : s.rejectedKey = some d.key
    · rw [if_pos hkey, if_pos (h.kept.rejectedKey.trans hkey)]
      exact h
    · rw [if_neg hkey, if_neg fun hkey' => hkey (h.kept.rejectedKey.symm.trans hkey')]
      have happlied := congrArg (· ++ [d]) h.kept.applied
      exact ⟨{ h.kept with applied := happlied }, h.length, h.handle⟩

/-- A move that is not made with another open file keeps the states alike, and this file answers the
same to it. -/
theorem step (h : Alike f s s') (hm : m.concerns f) :
    Alike f (s.step m) (s'.step m) ∧ s'.answer? f m = s.answer? f m := by
  cases m with
  | connect url =>
      have hconnected := congrArg (· ++ [url]) h.kept.connectedTo
      exact ⟨⟨{ h.kept with connectedTo := hconnected }, h.length, h.handle⟩, rfl⟩
  | setOption d => exact ⟨h.setOption d, rfl⟩
  | setLogging sink level => exact ⟨⟨{ h.kept with logging := rfl }, h.length, h.handle⟩, rfl⟩
  | openFile path => exact ⟨h.openFile path, rfl⟩
  | finish =>
      have hcount := congrArg (· + 1) h.kept.finishCount
      exact ⟨⟨{ h.kept with finishCount := hcount }, h.length, h.handle⟩, rfl⟩
  | put path contents =>
      have hfiles := congrArg ((path, contents) :: ·) h.kept.files
      exact ⟨⟨{ h.kept with files := hfiles }, h.length, h.handle⟩, rfl⟩
  | reserve path =>
      have hlocks := congrArg (path :: ·) h.kept.foreignLocks
      exact ⟨⟨{ h.kept with foreignLocks := hlocks }, h.length, h.handle⟩, rfl⟩
  | lock g kind =>
      obtain rfl : g = f := of_decide_eq_true hm
      refine ⟨h.within rfl ?_, rfl⟩
      rw [State.step, State.step, State.handle?_lock, State.handle?_lock, h.handle,
        h.kept.foreignLocks]
  | read g size =>
      obtain rfl : g = f := of_decide_eq_true hm
      refine ⟨h.within rfl ?_, ?_⟩
      · rw [State.step, State.step, State.handle?_read, State.handle?_read, h.handle,
          h.kept.failReadAfter]
      · rw [State.answer?, State.answer?, State.result_read, State.result_read, h.handle,
          h.kept.failReadAfter]
  | close g =>
      obtain rfl : g = f := of_decide_eq_true hm
      refine ⟨h.within rfl ?_, rfl⟩
      rw [State.step, State.step, State.handle?_close, State.handle?_close]
  | drop g =>
      obtain rfl : g = f := of_decide_eq_true hm
      refine ⟨h.within rfl ?_, rfl⟩
      rw [State.step, State.step, State.handle?_drop, State.handle?_drop]

/-- An open file answers the same if nothing is done with the others. -/
theorem answers_filter (h : Alike f s s') (ms : List Move) :
    s'.answers f (ms.filter (·.concerns f)) = s.answers f ms := by
  induction ms generalizing s s' with
  | nil => rfl
  | cons m rest ih =>
      cases hm : m.concerns f with
      | true =>
          obtain ⟨hstep, hanswer⟩ := h.step hm
          rw [List.filter_cons_of_pos hm, State.answers, State.answers, hanswer, ih hstep]
      | false =>
          -- The move is left out on one side, where the other file stays as it was.
          obtain ⟨g, hg, hne⟩ : ∃ g, m.file? = some g ∧ g ≠ f := by
            cases hf : m.file? with
            | none => simp [Move.concerns, hf] at hm
            | some g => exact ⟨g, rfl, by simpa [Move.concerns, hf] using hm⟩
          have hother : m.file? ≠ some f := by
            rw [hg]
            exact fun he => hne (Option.some.inj he)
          rw [List.filter_cons_of_neg (by simp [hm]), State.answers, State.answer?_of_ne hother,
            ih ((beside hg hne).symm.trans h)]
          rfl

end Alike

/-- A file is opened, and then anything is done, with this file and with others, in any order. What
the file gives is the beginning of what it held, and not more than reads are told to give. A read is
refused before the file was locked. Under the lock it fails if all that reads are told to give was
given, and if not it gives nothing only at the end of the file. What is done with the other files
makes no difference to this one. -/
theorem State.run_answers {s : State} {path : String} {f : Nat}
    (hopen : (s.openFile path).result = .ok f) (ms : List Move) :
    let opened := s.step (.openFile path)
    let now := opened.run ms
    let bytes := opened.gathered f ms
    ∃ data, s.contents? path = some data ∧ bytes <+: data.toList ∧
      (∀ most, s.failReadAfter = some most → bytes.length ≤ most) ∧
      (.close f ∉ ms → .drop f ∉ ms → (now.handle? f).isSome) ∧
      (∀ x, now.handle? f = some x → ∀ size,
        (opened.granted f ms = false → bytes = [] ∧ (∃ e, (now.read f size).result = .error e) ∧
          (now.step (.read f size)).handle? f = some x) ∧
        (∀ most, s.failReadAfter = some most → most ≤ bytes.length →
          opened.granted f ms ∨ 0 < most →
            (now.read f size).result = .error (.errno Errno.inputOutput)) ∧
        (opened.granted f ms → (∀ most, s.failReadAfter = some most → bytes.length < most) →
          ∃ more, (now.read f size).result = .ok more ∧ more.length ≤ size ∧
            (more = [] ↔ size = 0 ∨ bytes = data.toList)) ∧
        x.position ≤ x.stop now.failReadAfter size ∧
        x.stop now.failReadAfter size ≤ x.contents.size ∧
        x.stop now.failReadAfter size - x.position ≤ size) ∧
      opened.answers f (ms.filter (·.concerns f)) = opened.answers f ms := by
  intro opened now bytes
  obtain ⟨data, hdata, hnew, hstart⟩ := Progress.of_openFile hopen
  have h : Progress s.failReadAfter data f bytes (opened.granted f ms) now := hstart.run ms
  refine ⟨data, hdata, h.begins.isPrefix, fun most => h.length_le, ?_, fun x hx size => ?_,
    (Alike.refl f opened).answers_filter ms⟩
  · exact isSome_run (Option.isSome_of_mem hnew)
  · refine ⟨fun hl => ?_, fun most hmost hle hl => h.failed hx hmost hle hl size, fun hl hlt => ?_,
      h.bounds hx size⟩
    · rw [hl] at h
      exact h.refused hx size
    · rw [hl] at h
      exact h.gives hx hlt size

/-- One file is read while another one is open, and something else is put in its place meanwhile. -/
theorem State.run_answers_replaced :
    let s : State := { files := [("/a", #[1, 2, 3]), ("/b", #[9])], failReadAfter := some 2 }
    let opened := s.step (.openFile "/a")
    let ms : List Move := [.read 0 4, .openFile "/b", .lock 1 .read, .read 1 4, .lock 0 .write,
      .read 0 1, .put "/a" #[7], .close 1, .read 0 4]
    (s.openFile "/a").result = .ok 0 ∧ opened.gathered 0 ms = [1, 2] ∧
      opened.gathered 0 ms <+: [1, 2, 3] ∧
      ((opened.run ms).read 0 4).result = .error (.errno Errno.inputOutput) ∧
      opened.answers 0 [.read 0 4, .openFile "/b", .lock 0 .write, .read 0 1, .put "/a" #[7],
        .read 0 4] = opened.answers 0 ms := by
  intro s opened ms
  have hopen : (s.openFile "/a").result = .ok 0 := rfl
  have hheld : s.contents? "/a" = some #[1, 2, 3] := by decide +kernel
  have hbytes : opened.gathered 0 ms = [1, 2] := by decide +kernel
  obtain ⟨data, hdata, hprefix, -, hisOpen, hreads, hanswers⟩ := run_answers hopen ms
  obtain ⟨x, hx⟩ := Option.isSome_iff_exists.mp (hisOpen (by simp [ms]) (by simp [ms]))
  obtain ⟨-, hfails, -⟩ := hreads x hx 4
  rw [hheld] at hdata
  cases hdata
  rw [hbytes] at hfails
  exact ⟨hopen, hbytes, hprefix, hfails 2 rfl (Nat.le_refl 2) (.inr Nat.two_pos), hanswers⟩

end LockedCat.Memory
