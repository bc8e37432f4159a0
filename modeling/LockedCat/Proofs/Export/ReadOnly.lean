import LockedCat.Proofs.Export.Destinations
import LockedCat.Proofs.Export.ProperTrees

/-!
# The export only reads

Nobody who is served by an export changes its files, though they are opened for writing so that
they can be locked. Main statement: whatever clients do, every node stays where it is, the only
files that are made are logs, every file but these holds what it held, and a log grows at its end by
what the sessions say whose log it is.
-/

namespace LockedCat.Export

/-- Whether it is done through the export, and not past it. -/
def Deed.isServed : Deed → Bool
  | .move (.put ..) | .move (.remove _) => false
  | _ => true

namespace State

/-- The file that a deed gives a session for a log. -/
def sink? (s : State) : Deed → Option Nat
  | .move m => (s.happening? m).bind Happening.sink?
  | _ => none

/-- The files that sessions were given for a log by deeds. -/
def sinks : State → List Deed → List Nat
  | _, [] => []
  | s, d :: deeds => (s.sink? d).toList ++ sinks (s.perform d) deeds

/-! ## What is left as it was -/

/-- The nodes are as before but for new logs, and so are the files but for logs. -/
structure Intact (s₀ s : State) (logs : List Nat) : Prop where
  kept : ∀ names n, s₀.tree.node? names = some n → s.tree.node? names = some n
  made : ∀ names n, s.tree.node? names = some n →
    s₀.tree.node? names = some n ∨ ∃ id ∈ logs, n = .file id
  contents : ∀ id ∉ logs, s.tree.contents id = s₀.tree.contents id
  logs : ∀ id, s.Logs id → id ∈ logs
  housed : s.Housed
  grounded : s.tree.Grounded

variable {s₀ s : State} {logs : List Nat} {m : Move}

theorem Intact.refl (hs : s.volumes = []) (hg : s.tree.Grounded) : Intact s s [] where
  kept _ _ h := h
  made _ _ h := .inl h
  contents _ _ := rfl
  logs id hid := by
    obtain ⟨x, hx, -⟩ := hid
    rw [hs] at hx
    cases hx
  housed id hid := by
    obtain ⟨x, hx, -⟩ := hid
    rw [hs] at hx
    cases hx
  grounded := hg

/-- A move through the export adds one node at most, and that is a log. -/
theorem node?_step (hm : (Deed.move m).isServed) (names : List String) :
    (s.step m).tree.node? names = s.tree.node? names ∨
      s.tree.node? names = none ∧
        ∃ id, s.sink? (.move m) = some id ∧ (s.step m).tree.node? names = some (.file id) := by
  have hsame (h : (s.step m).tree.nodes = s.tree.nodes) :
      (s.step m).tree.node? names = s.tree.node? names ∨ s.tree.node? names = none ∧
        ∃ id, s.sink? (.move m) = some id ∧ (s.step m).tree.node? names = some (.file id) := by
    left
    rw [Tree.node?, Tree.node?, h]
  cases m with
  | connect url => exact hsame (congrArg Tree.nodes (s.tree_connect url))
  | setOption v d => exact hsame (s.nodes_setOption v d)
  | setLogging v sink level =>
      rcases s.setLogging_eq v sink level with ⟨c, he⟩ | ⟨x, log, s₁, -, ho, hs⟩
      · exact hsame (by rw [step, he])
      · have hsink : s.sink? (.move (.setLogging v sink level)) =
            (Happening.redirected v log level).sink? := by
          simp only [sink?, happening?, hs, ho, Option.bind_some]
        have hnodes : (s.step (.setLogging v sink level)).tree = s₁.tree := by
          rw [step, hs]
          rfl
        rcases openLog_eq_ok ho with ⟨-, rfl⟩ | ⟨r, id, tree, -, hc, rfl, rfl⟩
        · exact hsame (congrArg Tree.nodes hnodes)
        · rcases Tree.create_eq_ok hc with ⟨-, rfl⟩ | ⟨rfl, added, rfl⟩
          · exact hsame (congrArg Tree.nodes hnodes)
          · have hadded := Tree.node?_added (congrArg Tree.nodes hnodes) names
            rw [hadded]
            cases hold : s.tree.node? names with
            | some n => exact .inl rfl
            | none =>
                by_cases ha : added = names
                · exact .inr ⟨rfl, _, hsink, by simp [ha]⟩
                · exact .inl (by simp [ha])
  | openFile v path => exact hsame (s.still_openFile v path).nodes
  | lock f kind => exact hsame (s.still_lock f kind).nodes
  | read f size => exact hsame (s.still_read f size).nodes
  | close f => exact hsame (s.still_close f).nodes
  | drop f => exact hsame rfl
  | finish v => exact hsame (s.still_finish v).nodes
  | put | remove => cases hm

theorem rewrites_of_isServed (hm : (Deed.move m).isServed) : m.rewrites = false := by
  cases m with
  | put => cases hm
  | _ => rfl

theorem Intact.step (h : Intact s₀ s logs) (hm : (Deed.move m).isServed) :
    Intact s₀ (s.step m) (logs ++ (s.sink? (.move m)).toList) where
  kept names n hn := by
    rcases node?_step hm names with he | ⟨hnone, -⟩
    · rw [he, h.kept names n hn]
    · rw [h.kept names n hn] at hnone
      cases hnone
  made names n hn := by
    rcases node?_step hm names with he | ⟨-, id, hid, hfile⟩
    · rw [he] at hn
      exact (h.made names n hn).imp_right fun ⟨id, hid, hfile⟩ =>
        ⟨id, List.mem_append_left _ hid, hfile⟩
    · rw [hfile, Option.some.injEq] at hn
      exact .inr ⟨id, List.mem_append_right _ (by simp [hid]), hn.symm⟩
  contents id hid := by
    have hold : id ∉ logs := fun hc => hid (List.mem_append_left _ hc)
    have hquiet : ∀ x ∈ s.spoken m, s.place x.1 ≠ .log (.file id) :=
      fun x _ hplace => hold (h.logs id (logs_of_place hplace))
    rw [contents_step (rewrites_of_isServed hm) hquiet, h.contents id hold]
  logs id hid := by
    rcases logs_of_turns (s.turns_step m) hid with hlogs | hsink
    · exact List.mem_append_left _ (h.logs id hlogs)
    · exact List.mem_append_right _ (Option.mem_toList.mpr hsink)
  housed := h.housed.step h.grounded m
  grounded := (s.spares_step m).grounded h.grounded

/-! ## Deeds -/

theorem isServed_of_modest (hm : m.modest) : (Deed.move m).isServed := by
  cases m with
  | put | remove => cases hm
  | _ => rfl

theorem Intact.run (h : Intact s₀ s logs) {ms : List Move} (hms : ∀ m ∈ ms, m.modest) :
    Intact s₀ (s.run ms) logs := by
  induction ms generalizing s with
  | nil => exact h
  | cons m rest ih =>
      have hm := hms m (List.mem_cons_self ..)
      have hstep := h.step (isServed_of_modest hm)
      rw [sink?, sink?_of_modest hm, Option.toList_none, List.append_nil] at hstep
      exact ih hstep fun n hn => hms n (List.mem_cons_of_mem m hn)

theorem Intact.perform (h : Intact s₀ s logs) {d : Deed} (hd : d.isServed) :
    Intact s₀ (s.perform d) (logs ++ (s.sink? d).toList) := by
  obtain ⟨ms, hms, hmoves⟩ := s.exists_run_eq_perform d
  have hrun (hnone : s.sink? d = none) (hmodest : ∀ m ∈ ms, m.modest) :
      Intact s₀ (s.perform d) (logs ++ (s.sink? d).toList) := by
    rw [hms, hnone, Option.toList_none, List.append_nil]
    exact h.run hmodest
  cases d with
  | move m => exact h.step hd
  | replace | copy | run =>
      rcases hmoves with ⟨m, he, -⟩ | hmodest
      · cases he
      · exact hrun rfl hmodest

theorem Intact.performed (h : Intact s₀ s logs) {deeds : List Deed}
    (hdeeds : ∀ d ∈ deeds, d.isServed) :
    Intact s₀ (s.performed deeds) (logs ++ s.sinks deeds) := by
  induction deeds generalizing s logs with
  | nil =>
      rw [sinks, List.append_nil]
      exact h
  | cons d rest ih =>
      rw [sinks, ← List.append_assoc]
      exact ih (h.perform (hdeeds d (List.mem_cons_self ..)))
        fun e he => hdeeds e (List.mem_cons_of_mem d he)

theorem exists_run_eq_performed {deeds : List Deed} (hdeeds : ∀ d ∈ deeds, d.isServed) :
    ∃ ms, s.performed deeds = s.run ms ∧ ∀ m ∈ ms, m.rewrites = false := by
  induction deeds generalizing s with
  | nil => exact ⟨[], rfl, nofun⟩
  | cons d rest ih =>
      obtain ⟨ms, hms, hmoves⟩ := s.exists_run_eq_perform d
      obtain ⟨ns, hns, hrest⟩ := ih (s := s.perform d)
        fun e he => hdeeds e (List.mem_cons_of_mem d he)
      refine ⟨ms ++ ns, ?_, fun m hm => ?_⟩
      · rw [run_append, ← hms]
        exact hns
      · rcases List.mem_append.mp hm with hm | hm
        · rcases hmoves with ⟨n, rfl, rfl⟩ | hmodest
          · rw [List.mem_singleton.mp hm]
            exact rewrites_of_isServed (hdeeds _ (List.mem_cons_self ..))
          · exact rewrites_of_isServed (isServed_of_modest (hmodest m hm))
        · exact hrest m hm

/-! ## What fails -/

/-- The state after a diagnostic was written at the end of a file. -/
def noted (s : State) (id : Nat) (d : Diagnostic) : State :=
  { s with tree := s.tree.append id (s.line d.text).toUTF8.toList }

theorem say_state (s : State) (v : Nat) (d : Diagnostic) :
    (s.say v d.text).1 = s ∨
      ∃ id, s.place v = .log (.file id) ∧ (s.say v d.text).1 = s.noted id d := by
  rw [say_eq]
  cases s.place v with
  | events | nowhere => exact .inl rfl
  | log l =>
      cases l with
      | stderr | elsewhere => exact .inl rfl
      | file id => exact .inr ⟨id, rfl, rfl⟩

/-- An open that fails is put on record all the same. -/
theorem openFile_state_of_error {v : Nat} {path : String} {e : IoError}
    (h : (s.openFile v path).result = .error e) :
    (s.openFile v path).state = s ∨ ∃ id resolved, s.place v = .log (.file id) ∧
      (s.openFile v path).state = s.noted id (.opening path resolved) := by
  cases hv : s.volume? v with
  | none => exact .inl (by simp only [openFile, hv, unknown])
  | some x =>
      cases hn : Volume.names path with
      | error e => exact .inl (by simp only [openFile, hv, hn])
      | ok names =>
          have hstate : (s.openFile v path).state =
              (s.say v (Diagnostic.opening path (names.foldl Path.join x.brick)).text).1 := by
            simp only [openFile, hv, hn] at h ⊢
            split at h
            · rfl
            · rfl
            · cases h
          rw [hstate]
          refine (s.say_state v _).imp_right ?_
          rintro ⟨id, hplace, he⟩
          exact ⟨id, _, hplace, he⟩

/-- Whatever clients do to an export, every node stays and only logs are made, every file but the
logs holds what it held, and at any time a log grows by the diagnostics of the sessions whose log it
is by then. A session that cannot begin and a log that cannot be opened leave everything as it was,
and so does a file that cannot be opened, but for its diagnostic. -/
theorem performed_reads_only (root : String) {tree : Tree} (now : Moment) (network : Network)
    (beyond : String → Except IoError Destination) (ht : tree.Grounded) {deeds : List Deed}
    (hdeeds : ∀ d ∈ deeds, d.isServed) :
    let s₀ : State := {
      root := root, tree := tree, now := now, network := network, beyond := beyond }
    let s := s₀.performed deeds
    let logs := s₀.sinks deeds
    (∀ names n, tree.node? names = some n → s.tree.node? names = some n) ∧
    (∀ names n, s.tree.node? names = some n →
      tree.node? names = some n ∨ ∃ id ∈ logs, n = .file id) ∧
    (∀ id ∉ logs, s.tree.contents id = tree.contents id) ∧
    (∀ before after, deeds = before ++ after →
      let t := s₀.performed before
      ∃ ms, s = t.run ms ∧ ∀ id, (s.tree.contents id).toList =
        (t.tree.contents id).toList ++ (t.allRemarks ms).flatMap (Remark.written t id)) ∧
    (∀ url c, (s.connect url).result = .error c → (s.connect url).state = s) ∧
    (∀ v sink level c, (s.setLogging v sink level).result = .error c →
      (s.setLogging v sink level).state = s) ∧
    ∀ v path e, (s.openFile v path).result = .error e →
      (s.openFile v path).state = s ∨ ∃ id resolved, s.place v = .log (.file id) ∧
        (s.openFile v path).state = s.noted id (.opening path resolved) := by
  intro s₀ s logs
  have hstart : Intact s₀ s₀ [] := .refl rfl ht
  have hend : Intact s₀ s logs := hstart.performed hdeeds
  refine ⟨hend.kept, hend.made, hend.contents, fun before after he => ?_,
    fun url c => connect_state_of_error, fun v sink level c hc => ?_,
    fun v path e => openFile_state_of_error⟩
  · have hbefore : Intact s₀ (s₀.performed before) (s₀.sinks before) :=
      hstart.performed fun d hd => hdeeds d (he ▸ List.mem_append_left after hd)
    obtain ⟨ms, hms, hserved⟩ := exists_run_eq_performed (s := s₀.performed before)
      fun d hd => hdeeds d (he ▸ List.mem_append_right before hd)
    have hs : s = (s₀.performed before).run ms := by
      rw [← hms]
      show s₀.performed deeds = _
      rw [he]
      exact List.foldl_append
    refine ⟨ms, hs, fun id => ?_⟩
    rw [hs]
    exact written_run hbefore.housed hbefore.grounded hserved id
  · rw [setLogging_state_of_error hc]

/-- A file that cannot be opened leaves its mark in the log of the session. -/
theorem performed_missing_open_logged :
    let s := ({
      root := "/r"
      now := { year := 2024, month := 1, day := 1 }
      tree := { nodes := [(["v"], .directory)] } } : State).performed
        [.move (.connect ⟨"localhost", "v", "/f", 24007⟩),
          .move (.setLogging 0 "/r/log" .debug)]
    (s.openFile 0 "/f").result = .error (.errno Errno.notFound) ∧
      s.tree.node? ["log"] = some (.file 0) ∧
      (s.openFile 0 "/f").state.tree.contents 0 ≠ s.tree.contents 0 := by
  intro s
  refine ⟨?_, ?_, ?_⟩
  · rfl
  · decide +kernel +zetaReduce
  · decide +kernel +zetaReduce

/-- A log is made, and a file is copied, opened anew and read by the program while it is kept.
Another log is not below the root, and it makes no file there. -/
theorem performed_reads_only_logged :
    let tree : Tree := {
      nodes := [(["v"], .directory), (["v", "f"], .file 0)]
      files := [#[1, 2, 3]] }
    let now : Moment := { year := 2024, month := 1, day := 1 }
    let beyond (path : String) : Except IoError Destination :=
      if path = "/var/log" then .ok (.elsewhere 0) else .error (.errno Errno.notFound)
    let deeds : List Deed := [.move (.connect ⟨"localhost", "v", "/f", 24007⟩),
      .move (.openFile 0 "/f"), .move (.setLogging 0 "/r/log" .debug), .replace 0 0 "/f",
      .copy 0 "/f" "/f" 2 {},
      .run (["gfcat", "/f"].map Text.Glyphs.ofString) true { session := some 0 } {},
      .move (.setLogging 0 "/var/log" .debug), .move (.finish 0)]
    let s₀ : State := { root := "/r", tree := tree, now := now, beyond := beyond }
    let s := s₀.performed deeds
    tree.Grounded ∧ (∀ d ∈ deeds, d.isServed) ∧ s₀.sinks deeds = [1] ∧
      s.tree.node? ["v", "f"] = some (.file 0) ∧ s.tree.contents 0 = #[1, 2, 3] := by
  intro tree now beyond deeds s₀ s
  have hg : tree.Grounded := by
    intro names id hm
    simp only [tree, List.mem_cons, Prod.mk.injEq, reduceCtorEq, and_false, Node.file.injEq,
      List.not_mem_nil, or_false, false_or] at hm
    simp [tree, hm.2]
  have hdeeds : ∀ d ∈ deeds, d.isServed := by simp [deeds, Deed.isServed]
  have hsinks : s₀.sinks deeds = [1] := by decide +kernel +zetaReduce
  obtain ⟨hkept, -, hcontents, -⟩ := performed_reads_only "/r" now {} beyond hg hdeeds
  have hcontents : ∀ id ∉ s₀.sinks deeds, s.tree.contents id = tree.contents id := hcontents
  rw [hsinks] at hcontents
  exact ⟨hg, hdeeds, hsinks, hkept _ _ rfl, hcontents 0 (by decide)⟩

end State

end LockedCat.Export
