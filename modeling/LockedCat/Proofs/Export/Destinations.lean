import LockedCat.Proofs.Export.Diagnostics
import LockedCat.Proofs.Export.Options
import LockedCat.Proofs.Export.Sessions

/-!
# Where diagnostics go

What sessions say of themselves, told from what was done with them alone. Main statement: in every
run, each diagnostic goes to the one place that the last log that its session was given decides,
however old the open file is that it is about, and nothing else is said.
-/

namespace LockedCat.Export

/-! ## What was done -/

/-- Something that was done with a session, as the answers to its client tell. -/
inductive Happening where
  | began (volume : Nat) (name brick : String)
  | configured (volume : Nat) (directive : Directive)
  /-- A log was opened for a session. -/
  | redirected (volume : Nat) (log : Log) (level : Level)
  /-- A path was looked up, so it was not refused. Whether there is a file is another question. -/
  | sought (volume : Nat) (path resolved : String)
  | locked (volume : Nat) (kind : LockKind) (path : String)
  | closed (volume : Nat) (path : String)
  | finished (volume : Nat) (brick : String)
deriving DecidableEq, Repr

namespace Happening

/-- The session that it was done with. -/
def volume : Happening → Nat
  | began v _ _ | configured v _ | redirected v _ _ | sought v _ _ | locked v _ _ | closed v _
  | finished v _ => v

def directive? (v : Nat) : Happening → Option Directive
  | configured u d => if u = v then some d else none
  | _ => none

def redirection? (v : Nat) : Happening → Option (Log × Level)
  | redirected u log level => if u = v then some (log, level) else none
  | _ => none

/-- The file that a session was given for a log. -/
def sink? : Happening → Option Nat
  | redirected _ (.file id) _ => some id
  | _ => none

end Happening

/-- All that was done so far, in order. -/
abbrev History := List Happening

namespace History

/-- The directives that a session took. -/
def directives (past : History) (v : Nat) : List Directive := past.filterMap (·.directive? v)

/-- The logs that a session was given. -/
def redirections (past : History) (v : Nat) : List (Log × Level) :=
  past.filterMap (·.redirection? v)

/-- The log of a session is the last that it was given. -/
def logging (past : History) (v : Nat) : Option (Log × Level) := (past.redirections v).getLast?

theorem directives_append (past more : History) (v : Nat) :
    directives (past ++ more) v = past.directives v ++ more.directives v :=
  List.filterMap_append

theorem logging_append (past more : History) (v : Nat) :
    logging (past ++ more) v = (more.logging v).or (past.logging v) := by
  simp only [logging, redirections, List.filterMap_append, List.getLast?_append]

end History

namespace Happening

/-- What is said of it, after all that was done before. -/
def diagnostics (past : History) : Happening → List Diagnostic
  | began _ name brick => [.serving name brick]
  | configured v d =>
      .setting d ::
        ((Volume.lastValue? (past.directives v) d.key).map (.overrides d.key)).toList
  | redirected .. => []
  | sought _ path resolved => [.opening path resolved]
  | locked _ kind path => [.locked kind path]
  | closed _ path => [.closed path]
  | finished v brick =>
      [.finalizing brick ((past.directives v).map Directive.key).eraseDups.length]

/-- What is said of it and where: where the last log decides that its session was given. -/
def remarks (past : History) (h : Happening) : List Remark :=
  (h.diagnostics past).map fun d => ⟨h.volume, .of (past.logging h.volume), d⟩

end Happening

/-- What is said of one happening after the other. -/
def History.remarks (past : History) : History → List Remark
  | [] => []
  | h :: rest => h.remarks past ++ History.remarks (past ++ [h]) rest

theorem History.remarks_append_toList (past : History) (h : Option Happening) (rest : History) :
    past.remarks (h.toList ++ rest) =
      h.toList.flatMap (·.remarks past) ++ History.remarks (past ++ h.toList) rest := by
  cases h <;> simp [History.remarks]

namespace State

/-- What is done by a move, if anything is. -/
def happening? (s : State) : Move → Option Happening
  | .connect url =>
      match (s.connect url).result with
      | .error _ => none
      | .ok v => some (.began v url.volume (Path.join s.root url.volume))
  | .setOption v d =>
      match (s.setOption v d).result with
      | .error _ => none
      | .ok () => some (.configured v d)
  | .setLogging v sink level =>
      match (s.setLogging v sink level).result, s.openLog sink with
      | .ok (), .ok (log, _) => some (.redirected v log level)
      | _, _ => none
  | .openFile v path =>
      match s.volume? v with
      | none => none
      | some x =>
          match x.resolve path with
          | .error _ => none
          | .ok resolved => some (.sought v path resolved)
  | .lock f kind =>
      match (s.lock f kind).result, s.handle? f with
      | .ok (), some h => some (.locked h.volume kind h.path)
      | _, _ => none
  | .close f =>
      match (s.close f).result, s.handle? f with
      | .ok (), some h => some (.closed h.volume h.path)
      | _, _ => none
  | .finish v =>
      match (s.finish v).result, s.volume? v with
      | .ok (), some x => some (.finished v x.brick)
      | _, _ => none
  | .read .. | .drop _ | .put .. | .remove _ => none

/-- All that is done in a run. -/
def history : State → List Move → History
  | _, [] => []
  | s, m :: ms => (s.happening? m).toList ++ history (s.step m) ms

/-- All that is heard of a run. -/
def allNotes : State → List Move → List Note
  | _, [] => []
  | s, m :: ms => s.notes m ++ allNotes (s.step m) ms

/-! ## What sessions know of it -/

/-- What happens to the sessions when this is done. -/
inductive Turns (s s' : State) : Option Happening → Prop where
  | began {name brick} : s'.volumes = s.volumes ++ [{ brick := brick, name := name }] →
      Turns s s' (some (.began s.volumes.length name brick))
  | configured {v x d} : s.volume? v = some x → s'.volumes = s.volumes.set v (x.set d) →
      Turns s s' (some (.configured v d))
  | redirected {v x sink log level s₁} : s.volume? v = some x →
      s.openLog sink = .ok (log, s₁) →
      s' = s₁.setVolume v { x with log := some (log, level) } →
      Turns s s' (some (.redirected v log level))
  | other {h} : s'.volumes = s.volumes →
      (∀ v, History.directives h.toList v = [] ∧ History.redirections h.toList v = []) →
      Turns s s' h

theorem turns_step (s : State) (m : Move) : Turns s (s.step m) (s.happening? m) := by
  cases m with
  | connect url =>
      rcases s.connect_eq url with ⟨c, he⟩ | ⟨-, -, ho⟩
      · simp only [step, happening?, he]
        exact .other rfl fun _ => ⟨rfl, rfl⟩
      · simp only [step, happening?, ho]
        exact .began rfl
  | setOption v d =>
      cases hv : s.volume? v with
      | none =>
          simp only [step, happening?, setOption, hv, unknown]
          exact .other rfl fun _ => ⟨rfl, rfl⟩
      | some x =>
          obtain ⟨hresult, hvolumes⟩ := setOption_ok hv d
          simp only [step, happening?, hresult]
          exact .configured hv hvolumes
  | setLogging v sink level =>
      rcases s.setLogging_eq v sink level with ⟨c, he⟩ | ⟨x, log, s₁, hx, ho, hs⟩
      · simp only [step, happening?, he]
        exact .other rfl fun _ => ⟨rfl, rfl⟩
      · simp only [step, happening?, hs, ho]
        exact .redirected hx ho rfl
  | openFile v path =>
      refine .other (s.still_openFile v path).volumes fun u => ?_
      simp only [happening?]
      split
      · exact ⟨rfl, rfl⟩
      · split <;> exact ⟨rfl, rfl⟩
  | lock f kind =>
      refine .other (s.still_lock f kind).volumes fun u => ?_
      simp only [happening?]
      split <;> exact ⟨rfl, rfl⟩
  | read f size => exact .other (s.still_read f size).volumes fun _ => ⟨rfl, rfl⟩
  | close f =>
      refine .other (s.still_close f).volumes fun u => ?_
      simp only [happening?]
      split <;> exact ⟨rfl, rfl⟩
  | drop f => exact .other rfl fun _ => ⟨rfl, rfl⟩
  | finish v =>
      refine .other (s.still_finish v).volumes fun u => ?_
      simp only [happening?]
      split <;> exact ⟨rfl, rfl⟩
  | put path contents => exact .other (s.volumes_put path contents) fun _ => ⟨rfl, rfl⟩
  | remove path => exact .other (s.volumes_remove path) fun _ => ⟨rfl, rfl⟩

/-- A session that is given a log by a modest move is given no file. -/
theorem sink?_of_modest {s : State} {m : Move} (hm : m.modest) :
    (s.happening? m).bind Happening.sink? = none := by
  cases m with
  | setLogging v sink level =>
      have ho : s.openLog sink = .ok (.stderr, s) := if_pos (of_decide_eq_true hm)
      simp only [happening?, ho]
      split
      · rename_i he
        cases he
        rfl
      · rfl
  | openFile v path =>
      simp only [happening?]
      split
      · rfl
      · split <;> rfl
  | put | remove => cases hm
  | read | drop => rfl
  | _ =>
      simp only [happening?]
      split <;> rfl

/-- No modest move makes a session speak into a file that it did not speak into before. -/
theorem place_step {s : State} {m : Move} (hm : m.modest) {v id : Nat}
    (h : s.place v ≠ .log (.file id)) : (s.step m).place v ≠ .log (.file id) := by
  have hkept (hlog : ((s.step m).volume? v).bind Volume.log = (s.volume? v).bind Volume.log) :
      (s.step m).place v ≠ .log (.file id) := by
    rwa [place, hlog]
  have ht := s.turns_step m
  generalize hh : s.happening? m = happening at ht
  cases ht with
  | began hv =>
      refine hkept ?_
      rw [volume?_added hv]
      by_cases he : v = s.volumes.length
      · have hnone : s.volume? s.volumes.length = none := List.getElem?_eq_none (Nat.le_refl _)
        rw [if_pos he, he, hnone]
        rfl
      · rw [if_neg he]
  | @configured u x d hx hv =>
      refine hkept ?_
      rw [volume?_changed hx hv]
      by_cases he : u = v
      · rw [if_pos he, ← he, hx]
        rfl
      · rw [if_neg he]
  | @redirected u x sink log level s₁ hx ho hs =>
      have hlog : ∀ made, log ≠ .file made := by
        rintro made rfl
        have hnone := sink?_of_modest (s := s) hm
        rw [hh] at hnone
        cases hnone
      have hv : (s.step m).volumes = s.volumes.set u { x with log := some (log, level) } := by
        rw [hs, setVolume, openLog_volumes ho]
      rw [place, volume?_changed hx hv]
      by_cases he : u = v
      · rw [if_pos he]
        cases level <;> simp [Place.of, hlog]
      · rw [if_neg he]
        exact h
  | other hv =>
      refine hkept ?_
      rw [volume?, hv, volume?]

namespace Turns

variable {s s' : State} {h : Option Happening}

/-- The options of a session take in the directives that it takes, and nothing else. -/
theorem options (ht : Turns s s' h) {v : Nat} {ds : List Directive}
    (hs : ((s.volume? v).map Volume.options).getD [] = Volume.settled ds) :
    ((s'.volume? v).map Volume.options).getD [] =
      Volume.settled (ds ++ History.directives h.toList v) := by
  cases ht with
  | @began name brick hv =>
      have hnone : s.volume? s.volumes.length = none := List.getElem?_eq_none (Nat.le_refl _)
      rw [volume?_added hv]
      show _ = Volume.settled (ds ++ [])
      rw [List.append_nil, ← hs]
      by_cases he : v = s.volumes.length
      · rw [if_pos he, he, hnone]
        rfl
      · rw [if_neg he]
  | @configured u x d hx hv =>
      rw [volume?_changed hx hv]
      by_cases he : u = v
      · subst he
        have hmore : History.directives [.configured u d] u = [d] := by
          simp [History.directives, Happening.directive?]
        rw [hx] at hs
        rw [if_pos rfl, Option.toList, hmore, Volume.settled_concat, ← hs]
        rfl
      · have hmore : History.directives [.configured u d] v = [] := by
          simp [History.directives, Happening.directive?, he]
        rw [if_neg he, hs, Option.toList, hmore, List.append_nil]
  | @redirected u x sink log level s₁ hx ho hs' =>
      have hv : s'.volumes = s.volumes.set u { x with log := some (log, level) } := by
        rw [hs', setVolume, openLog_volumes ho]
      rw [volume?_changed hx hv]
      show _ = Volume.settled (ds ++ [])
      rw [List.append_nil]
      by_cases he : u = v
      · subst he
        rw [hx] at hs
        rw [if_pos rfl, ← hs]
        rfl
      · rw [if_neg he, hs]
  | other hv hnone => rw [volume?, hv, ← volume?, hs, (hnone v).1, List.append_nil]

/-- The log of a session is the last one it was given. -/
theorem log (ht : Turns s s' h) (v : Nat) :
    (s'.volume? v).bind Volume.log =
      (History.logging h.toList v).or ((s.volume? v).bind Volume.log) := by
  cases ht with
  | @began name brick hv =>
      have hnone : s.volume? s.volumes.length = none := List.getElem?_eq_none (Nat.le_refl _)
      rw [volume?_added hv]
      by_cases he : v = s.volumes.length
      · rw [if_pos he, he, hnone]
        rfl
      · rw [if_neg he]
        rfl
  | @configured u x d hx hv =>
      rw [volume?_changed hx hv]
      by_cases he : u = v
      · subst he
        rw [if_pos rfl, hx]
        rfl
      · rw [if_neg he]
        rfl
  | @redirected u x sink log level s₁ hx ho hs =>
      have hv : s'.volumes = s.volumes.set u { x with log := some (log, level) } := by
        rw [hs, setVolume, openLog_volumes ho]
      rw [volume?_changed hx hv]
      by_cases he : u = v <;>
        simp [he, History.logging, History.redirections, Happening.redirection?]
  | other hv hnone =>
      have hquiet : History.logging h.toList v = none := by
        rw [History.logging, (hnone v).2]
        rfl
      rw [volume?, hv, ← volume?, hquiet, Option.none_or]

end Turns

/-- The sessions are what was made of them. -/
structure Recalls (s : State) (past : History) : Prop where
  options : ∀ v, ((s.volume? v).map Volume.options).getD [] = Volume.settled (past.directives v)
  log : ∀ v, (s.volume? v).bind Volume.log = past.logging v

variable {s s' : State} {past : History}

theorem Recalls.of_no_volumes (h : s.volumes = []) : s.Recalls [] where
  options v := by simp [volume?, h, History.directives, Volume.settled]
  log v := by simp [volume?, h, History.logging, History.redirections]

theorem Recalls.turn (hr : s.Recalls past) {h : Option Happening} (ht : Turns s s' h) :
    s'.Recalls (past ++ h.toList) where
  options v := by
    rw [History.directives_append]
    exact ht.options (hr.options v)
  log v := by rw [ht.log, hr.log, History.logging_append]

theorem Recalls.place (hr : s.Recalls past) (v : Nat) : s.place v = .of (past.logging v) := by
  rw [State.place, hr.log]

/-- What a move lets be said is told from what was done. -/
theorem Recalls.remarks_spoken (hr : s.Recalls past) (m : Move) :
    s.remarks (s.spoken m) = (s.happening? m).toList.flatMap (·.remarks past) := by
  have hsaid (h : Happening) (hm : s.happening? m = some h)
      (hs : s.spoken m = (h.diagnostics past).map (h.volume, ·)) :
      s.remarks (s.spoken m) = (s.happening? m).toList.flatMap (·.remarks past) := by
    rw [hm, hs]
    simp [remarks, Happening.remarks, hr.place]
  have hsilent (hm : s.happening? m = none) (hs : s.spoken m = []) :
      s.remarks (s.spoken m) = (s.happening? m).toList.flatMap (·.remarks past) := by
    rw [hm, hs]
    rfl
  cases m with
  | connect url =>
      rcases s.connect_eq url with ⟨c, he⟩ | ⟨-, -, ho⟩
      · exact hsilent (by rw [happening?, he]) (by rw [spoken, he])
      · exact hsaid (.began s.volumes.length url.volume (Path.join s.root url.volume))
          (by rw [happening?, ho]) (by rw [spoken, ho]; rfl)
  | setOption v d =>
      cases hv : s.volume? v with
      | none =>
          exact hsilent (by simp only [happening?, setOption, hv, unknown]) (by rw [spoken, hv])
      | some x =>
          have hresult : (s.setOption v d).result = .ok () := by
            cases ho : x.option? d.key <;> simp [setOption, hv, ho]
          have hoptions := hr.options v
          rw [hv] at hoptions
          have hold : x.option? d.key = Volume.lastValue? (past.directives v) d.key := by
            rw [← Volume.find?_settled, ← hoptions]
            rfl
          refine hsaid (.configured v d) (by rw [happening?, hresult]) ?_
          simp only [spoken, hv, hold, Happening.diagnostics, Happening.volume]
          cases Volume.lastValue? (past.directives v) d.key <;> rfl
  | setLogging v sink level =>
      rcases s.setLogging_eq v sink level with ⟨c, he⟩ | ⟨x, log, s₁, -, ho, hs⟩
      · exact hsilent (by rw [happening?, he]) rfl
      · exact hsaid (.redirected v log level) (by rw [happening?, hs, ho]) rfl
  | openFile v path =>
      cases hv : s.volume? v with
      | none => exact hsilent (by rw [happening?, hv]) (by rw [spoken, hv])
      | some x =>
          cases hp : x.resolve path with
          | error e =>
              exact hsilent (by simp only [happening?, hv, hp]) (by simp only [spoken, hv, hp])
          | ok resolved =>
              exact hsaid (.sought v path resolved) (by simp only [happening?, hv, hp])
                (by simp only [spoken, hv, hp]; rfl)
  | lock f kind =>
      cases hf : s.handle? f with
      | none => exact hsilent (by simp only [happening?, lock, hf, unknown]) (by rw [spoken, hf])
      | some h =>
          by_cases hfree : s.isFree f h kind
          · have hresult := lock_eq_ok_iff.mpr ⟨h, hf, hfree⟩
            exact hsaid (.locked h.volume kind h.path) (by rw [happening?, hresult, hf])
              (by simp only [spoken, hf, if_pos hfree]; rfl)
          · refine hsilent ?_ (by simp only [spoken, hf, if_neg hfree])
            simp only [happening?, lock, hf, if_neg hfree]
  | read f size => exact hsilent rfl rfl
  | close f =>
      cases hf : s.handle? f with
      | none => exact hsilent (by simp only [happening?, close, hf, unknown]) (by rw [spoken, hf])
      | some h =>
          exact hsaid (.closed h.volume h.path) (by simp only [happening?, close, hf])
            (by simp only [spoken, hf]; rfl)
  | drop f => exact hsilent rfl rfl
  | finish v =>
      cases hv : s.volume? v with
      | none => exact hsilent (by simp only [happening?, finish, hv, unknown]) (by rw [spoken, hv])
      | some x =>
          have hoptions := hr.options v
          rw [hv] at hoptions
          have hcount : x.options.length =
              ((past.directives v).map Directive.key).eraseDups.length := by
            rw [← Volume.length_settled, ← hoptions]
            rfl
          refine hsaid (.finished v x.brick) (by simp only [happening?, finish, hv]) ?_
          simp only [spoken, hv, hcount]
          rfl
  | put path contents => exact hsilent rfl rfl
  | remove path => exact hsilent rfl rfl

/-! ## Logs -/

/-- Only a log that a session is given is a log from then on. -/
theorem logs_of_turns {h : Option Happening} (ht : Turns s s' h) {id : Nat} (hid : s'.Logs id) :
    s.Logs id ∨ h.bind Happening.sink? = some id := by
  obtain ⟨x, hx, most, hlog⟩ := hid
  cases ht with
  | began hv =>
      rw [hv, List.mem_append, List.mem_singleton] at hx
      rcases hx with hx | rfl
      · exact .inl ⟨x, hx, most, hlog⟩
      · cases hlog
  | configured hy hv =>
      rw [hv] at hx
      rcases List.mem_or_eq_of_mem_set hx with hx | rfl
      · exact .inl ⟨x, hx, most, hlog⟩
      · exact .inl ⟨_, List.mem_of_getElem? hy, most, hlog⟩
  | redirected hy ho hs =>
      rw [hs, setVolume, openLog_volumes ho] at hx
      rcases List.mem_or_eq_of_mem_set hx with hx | rfl
      · exact .inl ⟨x, hx, most, hlog⟩
      · cases hlog
        exact .inr rfl
  | other hv =>
      rw [hv] at hx
      exact .inl ⟨x, hx, most, hlog⟩

theorem openLog_file_lt (hg : s.tree.Grounded) {sink : String} {id : Nat} {s₁ : State}
    (h : s.openLog sink = .ok (.file id, s₁)) : id < s₁.tree.files.length := by
  rcases openLog_eq_ok h with ⟨hc, -⟩ | ⟨r, made, tree, -, hc, hlog, rfl⟩
  · exact absurd rfl (hc id)
  · cases hlog
    rcases Tree.create_eq_ok hc with ⟨hl, rfl⟩ | ⟨rfl, names, rfl⟩
    · obtain ⟨names, hm⟩ := Tree.mem_nodes_of_lookup hl
      exact hg names id hm
    · simp

theorem sink_lt_of_turns (hg : s.tree.Grounded) {h : Option Happening} (ht : Turns s s' h)
    {id : Nat} (hid : h.bind Happening.sink? = some id) : id < s'.tree.files.length := by
  cases ht with
  | began | configured => cases hid
  | @redirected v x sink log level s₁ hy ho hs =>
      cases log with
      | stderr | elsewhere => cases hid
      | file made =>
          cases hid
          rw [hs]
          show id < s₁.tree.files.length
          exact openLog_file_lt hg ho
  | @other h _ hnone =>
      cases h with
      | none => cases hid
      | some h =>
          cases h with
          | redirected v log level =>
              have := (hnone v).2
              simp [History.redirections, Happening.redirection?] at this
          | _ => cases hid

/-- A log that is given to a session is there, and no file ever goes away. -/
theorem Housed.step (hs : s.Housed) (hg : s.tree.Grounded) (m : Move) : (s.step m).Housed := by
  intro id hid
  have ht := s.turns_step m
  rcases logs_of_turns ht hid with hlogs | hsink
  · exact Nat.lt_of_lt_of_le (hs id hlogs) (s.spares_step m).length_le
  · exact sink_lt_of_turns hg ht hsink

/-! ## Runs -/

/-- All that is said in a run, each diagnostic where its session says it by then. -/
def allRemarks : State → List Move → List Remark
  | _, [] => []
  | s, m :: ms => s.remarks (s.spoken m) ++ allRemarks (s.step m) ms

theorem notes_run (s : State) (ms : List Move) :
    s.allNotes ms = (s.allRemarks ms).flatMap (Remark.heard s) := by
  induction ms generalizing s with
  | nil => rfl
  | cons m rest ih =>
      rw [allNotes, allRemarks, ih, notes_step, notes_tell, List.flatMap_append,
        funext (Remark.heard_congr (s.fixed_step m).now)]

theorem written_run (hh : s.Housed) (hg : s.tree.Grounded) {ms : List Move}
    (hms : ∀ m ∈ ms, m.rewrites = false) (id : Nat) :
    ((s.run ms).tree.contents id).toList =
      (s.tree.contents id).toList ++ (s.allRemarks ms).flatMap (Remark.written s id) := by
  induction ms generalizing s with
  | nil => exact (List.append_nil _).symm
  | cons m rest ih =>
      rw [run_cons, ih (hh.step hg m) ((s.spares_step m).grounded hg)
          fun n hn => hms n (List.mem_cons_of_mem m hn),
        written_step hh (hms m (List.mem_cons_self ..)), allRemarks, List.flatMap_append,
        List.append_assoc, funext (Remark.written_congr (s.fixed_step m).now id)]

/-- What was done so far decides what is said from here on, and where. -/
theorem Recalls.allRemarks (hr : s.Recalls past) (ms : List Move) :
    s.allRemarks ms = past.remarks (s.history ms) := by
  induction ms generalizing s past with
  | nil => rfl
  | cons m rest ih =>
      rw [State.allRemarks, history, History.remarks_append_toList, hr.remarks_spoken,
        ih (hr.turn (s.turns_step m))]

/-- Each diagnostic goes where the last log decides that its session was given: it is an event if
there was none, it ends the log if that takes what is for debugging, and it is lost otherwise. The
lines of a log that is none of the files below the root are told as they come. -/
theorem run_tells_history {s : State} (hs : s.volumes = []) (hg : s.tree.Grounded)
    {ms : List Move} (hms : ∀ m ∈ ms, m.rewrites = false) :
    let said := History.remarks [] (s.history ms)
    s.allNotes ms = said.flatMap (Remark.heard s) ∧
      (∀ id, ((s.run ms).tree.contents id).toList =
        (s.tree.contents id).toList ++ said.flatMap (Remark.written s id)) ∧
      ∀ v sink level c, ((s.run ms).setLogging v sink level).result = .error c →
        (s.run ms).setLogging v sink level = ⟨s.run ms, .error c, []⟩ := by
  have hhoused : s.Housed := by
    rintro id ⟨x, hx, -⟩
    rw [hs] at hx
    cases hx
  have hsaid := (Recalls.of_no_volumes hs).allRemarks ms
  refine ⟨?_, fun id => ?_, fun v sink level c => setLogging_state_of_error⟩
  · rw [notes_run, hsaid]
  · rw [written_run hhoused hg hms, hsaid]

/-- A file is locked that was opened before there was a log, a log that cannot be opened leaves
the one before it in its place, and one that takes only what matters more takes nothing. A path that
leads above the root leads to a log that is none of its files. -/
theorem run_tells_history_redirected :
    let s : State := {
      root := "/r"
      now := { year := 2024, month := 1, day := 1 }
      tree := {
        nodes := [(["v"], .directory), (["v", "f"], .file 0)]
        files := [#[1]] }
      beyond := fun path =>
        if path = "/r/v/../../log" then .ok (.elsewhere 0) else .error (.errno Errno.notFound) }
    let ms : List Move := [.connect ⟨"localhost", "v", "/f", 24007⟩,
      .setOption 0 ⟨"x", "a", "1"⟩, .openFile 0 "/f", .setLogging 0 "/r/log" .debug,
      .lock 0 .write, .setOption 0 ⟨"x", "a", "2"⟩, .setLogging 0 "/r/none/log" .info,
      .openFile 0 "/g", .setLogging 0 "/r/log" .info, .close 0,
      .setLogging 0 "/r/v/../../log" .debug, .openFile 0 "/", .setLogging 0 "/dev/stderr" .trace,
      .finish 0]
    let said : List Remark := [⟨0, .events, .serving "v" "/r/v"⟩,
      ⟨0, .events, .setting ⟨"x", "a", "1"⟩⟩, ⟨0, .events, .opening "/f" "/r/v/f"⟩,
      ⟨0, .log (.file 1), .locked .write "/f"⟩, ⟨0, .log (.file 1), .setting ⟨"x", "a", "2"⟩⟩,
      ⟨0, .log (.file 1), .overrides "x.a" "1"⟩, ⟨0, .log (.file 1), .opening "/g" "/r/v/g"⟩,
      ⟨0, .nowhere, .closed "/f"⟩, ⟨0, .log (.elsewhere 0), .opening "/" "/r/v"⟩,
      ⟨0, .log .stderr, .finalizing "/r/v" 1⟩]
    s.volumes = [] ∧ s.tree.Grounded ∧ (∀ m ∈ ms, m.rewrites = false) ∧
      History.remarks [] (s.history ms) = said ∧
      s.allNotes ms = said.flatMap (Remark.heard s) ∧
      ((s.run ms).tree.contents 1).toList = said.flatMap (Remark.written s 1) := by
  intro s ms said
  have hg : s.tree.Grounded := by
    intro names id hm
    simp only [s, List.mem_cons, Prod.mk.injEq, reduceCtorEq, and_false, Node.file.injEq,
      List.not_mem_nil, or_false, false_or] at hm
    simp [s, hm.2]
  have hms : ∀ m ∈ ms, m.rewrites = false := by simp [ms, Move.rewrites]
  have hsaid : History.remarks [] (s.history ms) = said := by decide +kernel +zetaReduce
  have hvolumes : s.volumes = [] := rfl
  obtain ⟨hnotes, hcontents, -⟩ := run_tells_history hvolumes hg hms
  rw [hsaid] at hnotes hcontents
  have hnew : (s.tree.contents 1).toList = [] := rfl
  have hlog := hcontents 1
  rw [hnew, List.nil_append] at hlog
  exact ⟨hvolumes, hg, hms, hsaid, hnotes, hlog⟩

end State

end LockedCat.Export
