import LockedCat.Proofs.Export.Serving

/-!
# Copies, and copies again

What is left of a copy when it is over. Main statement: however a copy or a run of the command ends,
every open file of the export is what it was, with its position and its lock, and there is none
more. Bytes are delivered only of a file that nobody holds a lock on, and if the copy is made at
once again, it ends in the same way and delivers the same.
-/

namespace LockedCat.Export

/-! ## Acts that leave no trace -/

/-- What an act on an export leaves behind that delivers a file at most. `succeeds` says which
results are a success, `session` is the session of the caller that the act is made in, and `file?`
the file that it opens. -/
structure Unobtrusive {ρ : Type} (act : World State → ρ × World State) (succeeds : ρ → Prop)
    (w : World State) (session file? : Option Nat) : Prop where
  /-- Every open file has the position and the lock that it had, and no other file is open. -/
  handles : ∀ f, (act w).2.state.handle? f = w.state.handle? f
  /-- Nothing is delivered of a file on which somebody else holds a lock of any kind. -/
  unlocked : succeeds (act w).1 ∨ (act w).2.sink.received ≠ w.sink.received →
    ∃ id, file? = some id ∧ ∀ f kind, ¬w.state.Holds f id kind
  /-- Unless the session speaks into the file, the act can be done again with such a sink. -/
  again : (∀ v id, session = some v → file? = some id → w.state.place v ≠ .log (.file id)) →
    ∀ w', w'.state = (act w).2.state → w'.sink = w.sink →
      (act w').1 = (act w).1 ∧ (act w').2.sink = (act w).2.sink

namespace Unobtrusive

variable {ρ ρ' : Type} {act : World State → ρ × World State} {succeeds : ρ → Prop}
  {w : World State} {session file? : Option Nat}

/-- An act that does nothing but fail. -/
theorem of_idle {r : ρ} (hr : ¬succeeds r)
    (h : ∀ w', w'.state = w.state →
      (act w').1 = r ∧ (act w').2.sink = w'.sink ∧ (act w').2.state = w.state) :
    Unobtrusive act succeeds w session file? where
  handles f := by rw [(h w rfl).2.2]
  unlocked hdone := by
    obtain ⟨hresult, hsink, -⟩ := h w rfl
    rcases hdone with hdone | hdone
    · rw [hresult] at hdone
      exact absurd hdone hr
    · exact absurd (congrArg Sink.received hsink) hdone
  again _ w' hstate hsink := by
    obtain ⟨h₁, h₂, h₃⟩ := h w rfl
    obtain ⟨h₁', h₂', -⟩ := h w' (hstate.trans h₃)
    exact ⟨h₁'.trans h₁.symm, by rw [h₂', h₂, hsink]⟩

/-- An act that does what another does, between some reports. -/
theorem wrap (act : World State → ρ × World State) {act' : World State → ρ' × World State}
    {succeeds' : ρ' → Prop} {g : ρ → ρ'}
    (hsucceeds : ∀ r, succeeds' (g r) → succeeds r)
    (hact : ∀ w, ∃ w₁, w₁.state = w.state ∧ w₁.sink = w.sink ∧ (act' w).1 = g (act w₁).1 ∧
      (act' w).2.sink = (act w₁).2.sink ∧ (act' w).2.state = (act w₁).2.state)
    (h : ∀ w₁, w₁.state = w.state → w₁.sink = w.sink →
      Unobtrusive act succeeds w₁ session file?) :
    Unobtrusive act' succeeds' w session file? := by
  obtain ⟨w₁, hs, hk, hr, hsink, hstate⟩ := hact w
  have h₁ := h w₁ hs hk
  refine ⟨fun f => by rw [hstate, h₁.handles, hs], fun hdone => ?_, fun hquiet w' hs' hk' => ?_⟩
  · rw [hr, hsink, ← hk] at hdone
    rw [← hs]
    exact h₁.unlocked (hdone.imp_left (hsucceeds _))
  · rw [← hs] at hquiet
    obtain ⟨w₂, hs₂, hk₂, hr₂, hsink₂, -⟩ := hact w'
    rw [hs', hstate] at hs₂
    rw [hk', ← hk] at hk₂
    obtain ⟨hresult, hsinks⟩ := h₁.again hquiet w₂ hs₂ hk₂
    exact ⟨by rw [hr₂, hr, hresult], by rw [hsink₂, hsink, hsinks]⟩

end Unobtrusive

/-! ## Copies through a session -/

namespace Serving

variable {s : State} {brick name path target : String} {keep : Nat → Prop} {v v' chunk : Nat}
  {w w' : World State}

/-- Nothing is delivered unless the file is there and nobody holds a lock on it. -/
theorem copy_delivered (h : Serving s brick name keep v w.state)
    (hdone : (∃ n, (Copy.copy provider v path target chunk w).1 = .ok n) ∨
      (Copy.copy provider v path target chunk w).2.sink.received ≠ w.sink.received) :
    ∃ id, s.seek brick name path = .ok id ∧ ∀ f kind, ¬s.Holds f id kind := by
  by_contra hno
  have hheld (id : Nat) (hid : s.seek brick name path = .ok id) : ∃ f kind, s.Holds f id kind := by
    by_contra hfree
    exact hno ⟨id, hid, fun f kind hholds => hfree ⟨f, kind, hholds⟩⟩
  obtain ⟨found, hfinds, hrefused⟩ := h.finds_refused hheld (min · readLimit)
  obtain ⟨⟨e, he⟩, hsink⟩ := hfinds.copy_refused hrefused target chunk
  rcases hdone with ⟨n, hn⟩ | hdone
  · rw [he] at hn
    cases hn
  · exact hdone (congrArg Sink.received hsink)

/-- Two sessions that can be used as if they were new deliver the same. -/
theorem copy_congr (h : Serving s brick name keep v w.state)
    (h' : Serving s brick name keep v' w'.state)
    (hkeep : ∀ id, s.seek brick name path = .ok id → keep id) (hsink : w'.sink = w.sink)
    (target : String) (chunk : Nat) :
    (Copy.copy provider v' path target chunk w').1 = (Copy.copy provider v path target chunk w).1 ∧
      (Copy.copy provider v' path target chunk w').2.sink =
        (Copy.copy provider v path target chunk w).2.sink := by
  obtain ⟨found, hfound⟩ := exists_finds s brick name path
  exact (hfound keep v' w'.state hkeep h').copy_congr (hfound keep v w.state hkeep h) hsink
    (fun data _ => .of_eq rfl data) target

end Serving

namespace State

variable {s : State} {v : Nat} {w : World State}

/-- The file that is opened in a session under this path, if there is one. -/
def opened? (s : State) (v : Nat) (path : String) : Option Nat :=
  match s.openFile v path with
  | ⟨s', .ok f, _⟩ => (s'.handle? f).map Handle.file
  | ⟨_, .error _, _⟩ => none

theorem Serves.opened?_eq_some {brick name : String} (h : s.Serves v brick name) (path : String)
    (id : Nat) : s.opened? v path = some id ↔ s.seek brick name path = .ok id := by
  obtain ⟨hresult, hhandles⟩ := h.openFile_seek path
  unfold opened?
  cases hopen : s.openFile v path with
  | mk s' result notes =>
      rw [hopen] at hresult hhandles
      cases hseek : s.seek brick name path with
      | error e =>
          rw [hseek] at hresult
          simp only [Except.map] at hresult
          simp [hresult]
      | ok id' =>
          rw [hseek] at hresult
          have hfile := handle?_opened (hhandles id' hseek) s.handles.length
          rw [if_pos rfl] at hfile
          simp only [Except.map] at hresult
          simp [hresult, hfile]

theorem volumes_copy (v : Nat) (path target : String) (chunk : Nat) (w : World State) :
    (Copy.copy provider v path target chunk w).2.state.volumes = w.state.volumes := by
  refine copy_invariant (P := fun s => s.volumes = w.state.volumes) (fun s hs => ?_)
    (fun s m f hs hm _ => ?_) target chunk rfl
  · exact (s.still_openFile v path).volumes.trans hs
  · cases m with
    | lock g kind => exact (s.still_lock g kind).volumes.trans hs
    | read g size => exact (s.still_read g size).volumes.trans hs
    | close g => exact (s.still_close g).volumes.trans hs
    | drop g => exact hs
    | _ => cases hm

theorem copy_unobtrusive (v : Nat) (path target : String) (chunk : Nat) (w : World State) :
    Unobtrusive (Copy.copy provider v path target chunk) (∃ n, · = .ok n) w (some v)
      (w.state.opened? v path) := by
  cases hx : w.state.volume? v with
  | none =>
      have hopen : w.state.openFile v path = w.state.unknown (.errno Errno.badDescriptor) := by
        simp only [openFile, hx]
      refine .of_idle (r := .error ⟨.copy .opening, target,
        (IoError.errno Errno.badDescriptor).chain.within
          ("cannot open " ++ path ++ " for reading")⟩)
        (by simp) fun w' hstate => ?_
      rw [← hstate] at hopen ⊢
      obtain ⟨hresult, hsink, hleft⟩ := Copy.copy_unopened (p := provider) (w := w')
        (congrArg (·.result) hopen) target chunk
      exact ⟨hresult, hsink, hleft.trans (congrArg (·.state) hopen)⟩
  | some x =>
      have hserves : w.state.Serves v x.brick x.name := ⟨x, hx, rfl, rfl⟩
      have hopened := hserves.opened?_eq_some path
      have hstart (keep : Nat → Prop) (hquiet : ∀ id, keep id → w.state.place v ≠ .log (.file id)) :
          Serving w.state x.brick x.name keep v w.state :=
        ⟨hserves, ⟨.refl keep w.state, hquiet⟩, fun _ => rfl⟩
      have hhandles := handle?_copy v path target chunk w
      refine ⟨hhandles, fun hdone => ?_, fun hquiet w' hstate hsink => ?_⟩
      · obtain ⟨id, hid, hfree⟩ :=
          (hstart (fun _ => False) fun _ => False.elim).copy_delivered hdone
        exact ⟨id, (hopened id).mpr hid, hfree⟩
      · have h := hstart (w.state.opened? v path = some ·) fun id => hquiet v id rfl
        have h' : Serving w.state x.brick x.name (w.state.opened? v path = some ·) v w'.state := by
          rw [hstate]
          exact ⟨hserves.congr (volumes_copy ..), h.discreet.copy path target chunk, hhandles⟩
        exact h.copy_congr h' (fun id hid => (hopened id).mpr hid) hsink target chunk

end State

/-! ## Runs of the command -/

namespace State

variable {s : State} {v : Nat} {url : Locator} {c : Command} {ctx : Context Nat} {w : World State}

/-- The file that is opened for a locator, if there is one. -/
def located? (s : State) (url : Locator) : Option Nat :=
  match s.connect url with
  | ⟨s', .ok v, _⟩ => s'.opened? v url.path
  | ⟨_, .error _, _⟩ => none

theorem located?_eq_some (hv : (s.connect url).result = .ok v) (id : Nat) :
    s.located? url = some id ↔
      s.seek (Path.join s.root url.volume) url.volume url.path = .ok id := by
  have hserving := (Keeps.refl (fun _ => True) s).connect_serving (fun _ => rfl) hv
  have hopened := hserving.serves.opened?_eq_some url.path id
  rw [hserving.seek_eq] at hopened
  rw [← hopened]
  unfold located?
  cases hc : s.connect url with
  | mk s' result notes =>
      rw [hc] at hv
      simp only at hv
      rw [hv]

/-- Whatever sessions there were meanwhile, one that is made for a locator comes to the same copy
and leaves the files as they were. -/
theorem execute_owned (hsession : ctx.session = none) (htarget : c.target = .locator url)
    (hv : (s.connect url).result = .ok v) (h : Keeps (fun _ => True) s w.state)
    (hhandles : ∀ f, w.state.handle? f = s.handle? f) :
    ∃ v' w₁, Serving s (Path.join s.root url.volume) url.volume (fun _ => True) v' w₁.state ∧
      w₁.sink = w.sink ∧
      (c.execute provider ctx w).1 =
        .ofResult (Copy.copy provider v' url.path c.operand ctx.chunk w₁).1 ∧
      (c.execute provider ctx w).2.sink =
        (Copy.copy provider v' url.path c.operand ctx.chunk w₁).2.sink ∧
      Keeps (fun _ => True) s (c.execute provider ctx w).2.state := by
  have hok := h.connect_eq_ok hv
  obtain ⟨w₁, h₁, hs₁, hresult, hsink, hstate⟩ := (Serving.obliging s _ _ _).carryOut_owned hsession
    htarget hok (h.connect_serving hhandles hok)
  obtain ⟨hend, hgot, hleft⟩ := c.execute_eq provider ctx w
  have hdone := (h₁.discreet.copy url.path c.operand ctx.chunk).finish
  refine ⟨_, w₁, h₁, hs₁, hend.trans (congrArg _ hresult), hgot.trans hsink, ?_⟩
  rw [hleft, hstate]
  exact hdone.toKeeps

theorem execute_owned_unobtrusive (hsession : ctx.session = none)
    (htarget : c.target = .locator url) (w : World State) :
    Unobtrusive (c.execute provider ctx) (· = .success) w none (w.state.located? url) := by
  cases hv : (w.state.connect url).result with
  | error x =>
      refine .of_idle (r := .failure .connect) nofun fun w' hstate => ?_
      obtain ⟨hend, hgot, hleft⟩ := c.execute_eq provider ctx w'
      rw [← hstate] at hv ⊢
      obtain ⟨hresult, hsink, hs⟩ :=
        Command.carryOut_unconnected (p := provider) hsession htarget hv
      rw [hend, hgot, hleft, hresult, hsink, hs]
      exact ⟨rfl, rfl, connect_state_of_error hv⟩
  | ok v =>
      have hsuits : c.Suits ctx := by simp [Command.Suits, hsession, htarget]
      have hhandles (f : Nat) :
          (c.execute provider ctx w).2.state.handle? f = w.state.handle? f := by
        obtain ⟨as, r, h, ht, -⟩ := c.execute_trace provider hsuits w
        exact handle?_of_trace ht h f
      obtain ⟨v₁, w₁, h₁, hs₁, hend₁, hgot₁, hkeeps⟩ :=
        execute_owned hsession htarget hv (.refl _ w.state) fun _ => rfl
      refine ⟨hhandles, fun hdone => ?_, fun _ w' hstate hsink => ?_⟩
      · rw [hend₁, hgot₁, ← hs₁, Outcome.ofResult_eq_success] at hdone
        obtain ⟨id, hid, hfree⟩ := h₁.copy_delivered hdone
        exact ⟨id, (located?_eq_some hv id).mpr hid, hfree⟩
      · rw [← hstate] at hkeeps hhandles
        obtain ⟨v₂, w₂, h₂, hs₂, hend₂, hgot₂, -⟩ :=
          execute_owned hsession htarget hv hkeeps hhandles
        have hsame : w₂.sink = w₁.sink := by rw [hs₂, hsink, hs₁]
        obtain ⟨hresult, hsinks⟩ := h₁.copy_congr h₂ (fun _ _ => trivial) hsame c.operand ctx.chunk
        exact ⟨by rw [hend₂, hend₁, hresult], by rw [hgot₂, hgot₁, hsinks]⟩

theorem execute_supplied_unobtrusive {path : VolumePath} (hsession : ctx.session = some v)
    (htarget : c.target = .path path) (w : World State) :
    Unobtrusive (c.execute provider ctx) (· = .success) w (some v)
      (w.state.opened? v path.text) := by
  refine .wrap (Copy.copy provider v path.text c.operand ctx.chunk) (g := Outcome.ofResult)
    (fun r => Outcome.ofResult_eq_success.mp) (fun w => ?_) fun w₁ hs₁ hk₁ => ?_
  · obtain ⟨w₁, hstate, hsink, hresult, hsinks, hstates⟩ :=
      Command.carryOut_supplied provider hsession htarget w
    obtain ⟨hend, hgot, hleft⟩ := c.execute_eq provider ctx w
    exact ⟨w₁, hstate, hsink, hend.trans (congrArg _ hresult), hgot.trans hsinks,
      hleft.trans hstates⟩
  · rw [← hs₁]
    exact copy_unobtrusive ..

/-- The file that a command opens, if there is one. -/
def target? (s : State) (c : Command) (ctx : Context Nat) : Option Nat :=
  match ctx.session, c.target with
  | some v, .path path => s.opened? v path.text
  | none, .locator url => s.located? url
  | _, _ => none

theorem execute_unobtrusive (c : Command) (ctx : Context Nat) (w : World State) :
    Unobtrusive (c.execute provider ctx) (· = .success) w ctx.session (w.state.target? c ctx) := by
  have hrefused {session file? : Option Nat} (h : ¬c.Suits ctx) :
      Unobtrusive (c.execute provider ctx) (· = .success) w session file? := by
    refine .of_idle (r := .failure .parse) nofun fun w' hstate => ?_
    rw [← hstate]
    exact execute_of_not_suits h w'
  cases hs : ctx.session with
  | none =>
      cases ht : c.target with
      | locator url =>
          have h := execute_owned_unobtrusive hs ht w
          simpa only [target?, hs, ht] using h
      | path path => exact hrefused (by simp [Command.Suits, hs, ht])
  | some v =>
      cases ht : c.target with
      | locator url => exact hrefused (by simp [Command.Suits, hs, ht])
      | path path =>
          have h := execute_supplied_unobtrusive hs ht w
          simpa only [target?, hs, ht] using h

/-- A run of the command as an act with one result. -/
def running (words : List Text.Glyphs) (connected : Bool) (ctx : Context Nat) (w : World State) :
    (Outcome × Shown) × World State :=
  let (outcome, shown, w) := Command.run provider words connected ctx w
  ((outcome, shown), w)

/-- The file that a run of the command opens, if there is one. -/
def wanted? (s : State) (words : List Text.Glyphs) (connected : Bool) (ctx : Context Nat) :
    Option Nat :=
  match Command.parse words connected with
  | .error _ => none
  | .ok c => s.target? c ctx

theorem run_unobtrusive (words : List Text.Glyphs) (connected : Bool) (ctx : Context Nat)
    (w : World State) :
    Unobtrusive (running words connected ctx) (·.1 = .success) w ctx.session
      (w.state.wanted? words connected ctx) := by
  cases hparse : Command.parse words connected with
  | error e =>
      have hfailed : e.1 ≠ .success := Command.ne_success_of_parse hparse
      refine .of_idle (r := e) hfailed fun w' hstate => ?_
      rw [← hstate]
      simp only [running, Command.run, hparse, and_self]
  | ok c =>
      have h := execute_unobtrusive c ctx
      have hfile (w : World State) :
          w.state.wanted? words connected ctx = w.state.target? c ctx := by
        simp only [wanted?, hparse]
      rw [hfile]
      refine .wrap (c.execute provider ctx) (g := (·, {})) (fun _ => id) (fun w => ?_)
        fun w₁ hs₁ _ => hs₁ ▸ h w₁
      exact ⟨w, rfl, rfl, by simp only [running, Command.run, hparse, and_self]⟩

/-- However a copy or a run of the command ends, on whatever export, it leaves every open file as it
was and no lock, it delivers nothing of a file that others have locked, and it can be done again. -/
theorem copy_and_run_unobtrusive (w : World State) :
    (∀ v path target chunk,
      Unobtrusive (Copy.copy provider v path target chunk) (∃ n, · = .ok n) w (some v)
        (w.state.opened? v path)) ∧
    ∀ words connected ctx,
      Unobtrusive (running words connected ctx) (·.1 = .success) w ctx.session
        (w.state.wanted? words connected ctx) :=
  ⟨fun v path target chunk => copy_unobtrusive v path target chunk w,
    fun words connected ctx => run_unobtrusive words connected ctx w⟩

/-- While somebody reads a locked file, another file is delivered twice. -/
theorem copy_and_run_unobtrusive_beside_reader :
    let s : State := {
      root := "/r"
      now := { year := 2024, month := 1, day := 1 }
      tree := {
        nodes := [(["v"], .directory), (["v", "f"], .file 0), (["v", "g"], .file 1)]
        files := [#[1, 2, 3], #[4, 5]] }
      handles := [some
        { file := 1, path := "/g", volume := 0, position := 1, lock := some .read }] }
    let words := ["gfcat", "-d", "glfs://localhost/v/f"].map Text.Glyphs.ofString
    ∃ r r', running words false {} { state := s } = r ∧
      running words false {} { state := r.2.state } = r' ∧ s.wanted? words false {} = some 0 ∧
      r.1.1 = .success ∧ r'.1.1 = .success ∧
      r.2.sink.received = [1, 2, 3] ∧ r'.2.sink.received = [1, 2, 3] ∧
      ∀ f, r.2.state.handle? f = s.handle? f := by
  intro s words
  have hdone := (copy_and_run_unobtrusive { state := s }).2 words false {}
  have hfile : s.wanted? words false {} = some 0 := by decide +kernel +zetaReduce
  have hsuccess : (running words false {} { state := s }).1.1 = .success := by
    decide +kernel +zetaReduce
  have hreceived : (running words false {} { state := s }).2.sink.received = [1, 2, 3] := by
    decide +kernel +zetaReduce
  obtain ⟨r, hr⟩ : ∃ r, running words false {} { state := s } = r := ⟨_, rfl⟩
  have hhandles := hdone.handles
  have hagain := hdone.again (fun _ _ h => nomatch h) { state := r.2.state }
  rw [hr] at hhandles hagain hsuccess hreceived
  obtain ⟨hresult, hsink⟩ := hagain rfl rfl
  refine ⟨r, _, hr, rfl, hfile, hsuccess, ?_, hreceived, ?_, hhandles⟩
  · rw [hresult, hsuccess]
  · rw [hsink, hreceived]

end State

end LockedCat.Export
