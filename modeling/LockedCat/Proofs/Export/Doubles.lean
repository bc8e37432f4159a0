import LockedCat.Proofs.Export.Serving
import LockedCat.Proofs.Memory

/-!
# Volumes in memory as doubles of exported volumes

A volume in memory can stand for a volume of an export when it holds the same files under their
canonical paths and is told which of them others have locked. Main statement: no command can tell
the two apart by how it ends, by the bytes that it gets or by the flushes of its sink, unless it
copies a file that its own session says something into, or its sink has its single writes settled
beforehand and sees that one read of an export has a limit.
-/

namespace LockedCat

open LockedCat.Path (Name)

/-! ## Doubles -/

/-- A volume in memory on which nothing was done yet, which holds the regular files of a volume of
an export under their canonical paths and on which the files are locked that others hold locks
on. -/
structure Memory.State.Doubles (m : Memory.State) (s : Export.State) (volume : Name) : Prop where
  fresh : m = { files := m.files, foreignLocks := m.foreignLocks }
  contents : ∀ names, m.contents? (Path.canonical names) =
    (s.regular? volume names).map s.tree.contents
  locked : ∀ names id, s.regular? volume names = some id →
    (Path.canonical names ∈ m.foreignLocks ↔ ∃ f kind, s.Holds f id kind)

theorem Memory.State.Doubles.willing {m : Memory.State} {s : Export.State} {volume : Name}
    (h : m.Doubles s volume) : Memory.Willing m m where
  files := rfl
  foreignLocks := rfl
  rejectedKey := congrArg Memory.State.rejectedKey h.fresh
  failReadAfter := congrArg Memory.State.failReadAfter h.fresh
  failClose := congrArg Memory.State.failClose h.fresh
  unfinished := congrArg Memory.State.isFinished h.fresh

namespace Export.State

variable {s : State} {volume : Name}

/-- The regular files of a volume, each under its names. -/
def regulars (s : State) (volume : Name) : List (List Name × Nat) :=
  s.tree.nodes.filterMap fun x =>
    (x.1.tail.mapM Name.of?).bind fun names => (s.regular? volume names).map (names, ·)

/-- Somebody holds a lock on the file with this identity. -/
def isLocked (s : State) (id : Nat) : Bool :=
  s.handles.any fun x => x.any fun h => h.file = id && h.lock.isSome

/-- The double of a volume. -/
def double (s : State) (volume : Name) : Memory.State where
  files := (s.regulars volume).map fun x => (Path.canonical x.1, s.tree.contents x.2)
  foreignLocks := ((s.regulars volume).filter fun x => s.isLocked x.2).map
    fun x => Path.canonical x.1

theorem regular?_congr {names names' : List Name} (h : Path.texts names = Path.texts names') :
    s.regular? volume names = s.regular? volume names' := by
  have hcons (names : List Name) :
      Path.texts (volume :: names) = volume.text :: Path.texts names := rfl
  unfold regular?
  rw [hcons, h, ← hcons]

theorem mem_regulars {names : List Name} {id : Nat} :
    (names, id) ∈ s.regulars volume ↔ s.regular? volume names = some id := by
  unfold regulars
  rw [List.mem_filterMap]
  constructor
  · rintro ⟨x, -, hx⟩
    obtain ⟨names', -, hx⟩ := Option.bind_eq_some_iff.mp hx
    obtain ⟨id', hid, hx⟩ := Option.map_eq_some_iff.mp hx
    cases hx
    exact hid
  · intro h
    have hmem := Tree.mem_nodes (List.cons_ne_nil _ _) (regular?_eq_some.mp h)
    refine ⟨_, hmem, ?_⟩
    show ((Path.texts names).mapM Name.of?).bind _ = some (names, id)
    rw [Path.mapM_of?_texts, Option.bind_some, h]
    rfl

/-- Whether a volume is exported can be found out from its regular files one by one. -/
theorem exports_of_regulars (hproper : s.tree.Proper)
    (hdirectory : s.tree.node? [volume.text] = some .directory)
    (hreachable : Path.rejection? (Path.join s.root volume.text) = none)
    (haskable : ∀ x ∈ s.regulars volume, Path.rejection? (s.located volume x.1) = none) :
    s.Exports volume where
  proper := hproper
  directory := hdirectory
  reachable := hreachable
  askable _ _ hid := haskable _ (mem_regulars.mpr hid)

theorem isLocked_iff {id : Nat} : s.isLocked id ↔ ∃ f kind, s.Holds f id kind := by
  unfold isLocked
  rw [List.any_eq_true]
  constructor
  · rintro ⟨x, hmem, hx⟩
    cases x with
    | none => cases hx
    | some h =>
        obtain ⟨f, hf⟩ := List.mem_iff_getElem?.mp hmem
        have hx : h.file = id ∧ h.lock.isSome := by simpa using hx
        obtain ⟨kind, hk⟩ := Option.isSome_iff_exists.mp hx.2
        exact ⟨f, kind, h, handle?_eq_some.mpr hf, hx.1, hk⟩
  · rintro ⟨f, kind, h, hh, hfile, hk⟩
    refine ⟨some h, List.mem_of_getElem? (handle?_eq_some.mp hh), ?_⟩
    simp [hfile, hk]

/-- Every volume has a double. -/
theorem doubles_double (s : State) (volume : Name) : (s.double volume).Doubles s volume where
  fresh := rfl
  contents names := by
    have hsame {names' : List Name} {id : Nat} (hm : (names', id) ∈ s.regulars volume)
        (hc : Path.canonical names' = Path.canonical names) :
        s.regular? volume names = some id := by
      rw [← mem_regulars.mp hm]
      exact regular?_congr (Path.canonical_inj.mp hc).symm
    rw [Memory.State.contents?, double, List.find?_map, Option.map_map]
    cases hfind : (s.regulars volume).find? ((·.1 = Path.canonical names) ∘
        fun x => (Path.canonical x.1, s.tree.contents x.2)) with
    | some x =>
        have hc : Path.canonical x.1 = Path.canonical names := by
          simpa using List.find?_some hfind
        rw [hsame (List.mem_of_find?_eq_some hfind) hc]
        rfl
    | none =>
        cases hid : s.regular? volume names with
        | none => rfl
        | some id =>
            have := List.find?_eq_none.mp hfind _ (mem_regulars.mpr hid)
            simp at this
  locked names id hid := by
    rw [← isLocked_iff, double, List.mem_map]
    constructor
    · rintro ⟨⟨names', id'⟩, hm, hc⟩
      rw [List.mem_filter] at hm
      have hid' := mem_regulars.mp hm.1
      rw [regular?_congr (Path.canonical_inj.mp hc), hid, Option.some.injEq] at hid'
      rw [hid']
      exact hm.2
    · intro hl
      exact ⟨(names, id), List.mem_filter.mpr ⟨mem_regulars.mpr hid, hl⟩, rfl⟩

end Export.State

/-! ## Sinks with settled writes -/

section Settled

variable {σ V F : Type}

namespace World

variable {w : World σ} {bytes : List UInt8} {rest : List (Except IoError Nat)}

/-- A write that is settled to take all the bytes is the only one. -/
theorem writeAll_taken {n : Nat} (hb : bytes ≠ []) (hn : bytes.length ≤ n)
    (ha : w.sink.answers = .ok n :: rest) :
    ∃ w₁, w.writeAll bytes = (.ok (), w₁) ∧ w₁.state = w.state ∧ w₁.sink.answers = rest ∧
      w₁.sink.flushFailure = w.sink.flushFailure := by
  have hwrite : w.sink.write bytes =
      (.ok bytes.length, { w.sink with answers := rest }.take bytes) := by
    simp only [Sink.write, ha, Nat.min_eq_right hn, List.take_of_length_le hn]
  obtain ⟨b, bs, rfl⟩ := List.exists_cons_of_ne_nil hb
  have hw : w.write (b :: bs) = (.ok (bs.length + 1), (w.write (b :: bs)).2) := by
    apply Prod.ext
    · rw [fst_write, hwrite]
      rfl
    · rfl
  refine ⟨(w.write (b :: bs)).2, ?_, rfl, ?_⟩
  · rw [writeAll_eq, if_neg (by simp), hw]
    simp only [List.drop_succ_cons, List.drop_length]
    rw [writeAll_eq]
    exact if_pos rfl
  · rw [sink_write, hwrite]
    exact ⟨rfl, rfl⟩

/-- A write that is settled to fail ends it. -/
theorem writeAll_refused {e : IoError} (hb : bytes ≠ []) (he : e.isInterrupted = false)
    (ha : w.sink.answers = .error e :: rest) : (w.writeAll bytes).1 = .error e := by
  have hw : w.write bytes = (.error e, (w.write bytes).2) := by
    apply Prod.ext
    · simp only [fst_write, Sink.write, ha]
    · rfl
  rw [writeAll_eq, if_neg (by simpa using hb), hw]
  simp only [he, Bool.false_eq_true, if_false]

end World

namespace Steady

variable {p : Provider σ V F} {f : F} {data : Contents} {most : Nat → Nat}
  {Reached : Nat → σ → Prop} {position copied : Nat} {chunk : { n : Nat // 0 < n }} {w : World σ}
  {rest : List (Except IoError Nat)}

/-- Before the end of the file a read gives something. -/
theorem stretch_ne_nil (hp : Steady p f data most Reached) (hlt : position < data.size)
    (chunk : { n : Nat // 0 < n }) : data.stretch position (position + most chunk) ≠ [] := by
  have hpos := hp.most_pos chunk chunk.2
  apply List.ne_nil_of_length_pos
  rw [Contents.length_stretch]
  omega

/-- What a read gives is written at once if the sink is settled to take as much. -/
theorem transfer_taken (hp : Steady p f data most Reached) (hr : Reached position w.state)
    (hlt : position < data.size) {n : Nat} (hn : data.size ≤ n)
    (ha : w.sink.answers = .ok n :: rest) (chunk : { n : Nat // 0 < n }) (copied : Nat) :
    ∃ k, ∃ w₁ : World σ, position + k = min (position + most chunk) data.size ∧
      Reached (position + k) w₁.state ∧
      w₁.sink.answers = rest ∧ w₁.sink.flushFailure = w.sink.flushFailure ∧
      Copy.transfer p f chunk copied w = Copy.transfer p f chunk (copied + k) w₁ := by
  obtain ⟨w₁, hread, hr₁, hs₁⟩ := hp.read hr chunk
  have hlen := data.length_stretch position (position + most chunk)
  have hne := hp.stretch_ne_nil hlt chunk
  generalize data.stretch position (position + most chunk) = bytes at *
  obtain ⟨w₂, hwrite, hstate, hanswers, hflush⟩ :=
    World.writeAll_taken (w := w₁) (n := n) hne (by omega) (by rw [hs₁, ha])
  obtain ⟨b, bs, rfl⟩ := List.exists_cons_of_ne_nil hne
  refine ⟨(b :: bs).length, w₂, ?_, ?_, hanswers, ?_, ?_⟩
  · omega
  · rw [hstate]
    exact hr₁
  · rw [hflush, hs₁]
  · rw [Copy.transfer_eq, hread]
    simp only [hwrite]

/-- What a read gives is lost if the sink is settled to fail. -/
theorem transfer_refused (hp : Steady p f data most Reached) (hr : Reached position w.state)
    (hlt : position < data.size) {e : IoError} (he : e.isInterrupted = false)
    (ha : w.sink.answers = .error e :: rest) :
    (Copy.transfer p f chunk copied w).1 = .error (e.chain.within "write error") := by
  obtain ⟨w₁, hread, -, hs₁⟩ := hp.read hr chunk
  have hne := hp.stretch_ne_nil hlt chunk
  have hwrite := World.writeAll_refused (w := w₁) hne he (by rw [hs₁, ha])
  obtain ⟨b, bs, hb⟩ := List.exists_cons_of_ne_nil hne
  rw [hb] at hread hwrite
  rw [Copy.transfer_eq, hread]
  cases hw : w₁.writeAll (b :: bs) with
  | mk result w₂ =>
      rw [hw] at hwrite
      cases hwrite
      simp only [hw]

/-- At the end of the file there is only the flush left. -/
theorem transfer_ended (hp : Steady p f data most Reached) (hr : Reached position w.state)
    (hle : data.size ≤ position) (hflush : w.sink.flushFailure = none) :
    (Copy.transfer p f chunk copied w).1 = .ok copied := by
  obtain ⟨w₁, hread, -, hs₁⟩ := hp.read hr chunk
  have hnil : data.stretch position (position + most chunk) = [] := by
    apply List.eq_nil_of_length_eq_zero
    rw [Contents.length_stretch]
    omega
  obtain ⟨w₂, hf⟩ : ∃ w₂, w₁.flush = (none, w₂) := by
    refine ⟨w₁.flush.2, Prod.ext ?_ rfl⟩
    show w₁.sink.flushFailure = none
    rw [hs₁, hflush]
  rw [Copy.transfer_eq, hread, hnil]
  simp only [hf]

end Steady

namespace Offers

variable {p : Provider σ V F} {v : V} {path : String} {data : Contents} {most : Nat → Nat}
  {chunk n : Nat} {w : World σ} {rest : List (Except IoError Nat)}

theorem granted {s : σ} (h : Offers p v path s most (some (some data))) :
    Finds p v path s most (.ok (.ok data)) := by
  obtain ⟨found, hfinds, hoffer⟩ := h
  rcases found with e | e | data'
  · cases hoffer
  · cases hoffer
  · cases hoffer
    exact hfinds

/-- A sink that is to take one write is enough for a file that one read gives whole. -/
theorem copy_whole (h : Offers p v path w.state most (some (some data)))
    (hmost : data.size ≤ most (Copy.readSize chunk)) (hpos : 0 < data.size) (hn : data.size ≤ n)
    (ha : w.sink.answers = .ok n :: rest) (hflush : w.sink.flushFailure = none) (target : String) :
    (Copy.copy p v path target chunk w).1 = .ok data.size := by
  obtain ⟨f, Reached, w₁, hsteady, hr, hs₁, hresult, -⟩ := h.granted.exists_transfer target chunk
  obtain ⟨k, w₂, hk, hr₂, -, hflush₂, htransfer⟩ :=
    hsteady.transfer_taken hr hpos hn (by rw [hs₁, ha]) (Copy.readSize chunk) 0
  have hflush₂ : w₂.sink.flushFailure = none := by rw [hflush₂, hs₁, hflush]
  have hsize : 0 + k = data.size := by omega
  rw [hresult, htransfer, hsteady.transfer_ended hr₂ (by omega) hflush₂, hsize]
  rfl

/-- A sink that is to take one write and to fail the next is not enough for a file of which one read
gives only a part. -/
theorem copy_cut (h : Offers p v path w.state most (some (some data)))
    (hmost : most (Copy.readSize chunk) < data.size) (hn : data.size ≤ n) {e : IoError}
    (he : e.isInterrupted = false) (ha : w.sink.answers = .ok n :: .error e :: rest)
    (target : String) :
    (Copy.copy p v path target chunk w).1 =
      .error ⟨.copy .transfer, target, e.chain.within "write error"⟩ := by
  obtain ⟨f, Reached, w₁, hsteady, hr, hs₁, hresult, -⟩ := h.granted.exists_transfer target chunk
  obtain ⟨k, w₂, hk, hr₂, ha₂, -, htransfer⟩ :=
    hsteady.transfer_taken hr (by omega) hn (by rw [hs₁, ha]) (Copy.readSize chunk) 0
  rw [hresult, htransfer, hsteady.transfer_refused hr₂ (by omega) he ha₂]
  rfl

end Offers

end Settled

/-! ## Commands -/

/-- The same context for a volume in memory, which has one session. -/
def Context.double (ctx : Context Nat) : Context Unit where
  session := ctx.session.map fun _ => ()
  debug := ctx.debug
  chunk := ctx.chunk

namespace Command

/-- A command names a file of a volume, by a locator with a host that is the machine itself or by
a path in a session of its caller with this volume. -/
inductive Addresses (s : Export.State) (volume : Name) (names : List Name) (ctx : Context Nat)
    (c : Command) : Prop where
  | owned {url} : ctx.session = none → c.target = .locator url →
      Export.reach s.network url = .ok () → url.volume = volume.text →
      url.path = Path.canonical names → Addresses s volume names ctx c
  | supplied {v path x} : ctx.session = some v → c.target = .path path →
      path.text = Path.canonical names → s.volume? v = some x → x.name = volume.text →
      x.brick = Path.join s.root volume.text → Addresses s volume names ctx c

/-- The files of a volume under these names that a copy is granted: nobody holds a lock on them. -/
def Granted (s : Export.State) (volume : Name) (names : List Name) (id : Nat) : Prop :=
  s.regular? volume names = some id ∧ ¬∃ f kind, s.Holds f id kind

variable {s : Export.State} {m : Memory.State} {volume : Name} {names : List Name}
  {ctx : Context Nat} {c : Command}

theorem Addresses.comes_export (h : Addresses s volume names ctx c) (hs : s.Exports volume)
    (hquiet : ∀ v id, ctx.session = some v → Granted s volume names id →
      s.place v ≠ .log (.file id)) :
    Comes Export.provider
      (Export.Serving s (Path.join s.root volume.text) volume.text (Granted s volume names))
      (Path.canonical names) ctx c s := by
  cases h with
  | @owned url hsession htarget hreach hvolume hpath =>
      have hok := hs.connect_eq_ok hreach hvolume
      have hserving := (Export.Keeps.refl _ s).connect_serving (fun _ => rfl) hok
      rw [hvolume] at hserving
      exact .owned hsession htarget hpath hok (hserving.mono fun _ _ => trivial)
  | @supplied v path x hsession htarget hpath hx hname hbrick =>
      exact .supplied hsession htarget hpath
        ⟨⟨x, hx, hbrick, hname⟩, ⟨.refl _ s, fun id => hquiet v id hsession⟩, fun _ => rfl⟩

theorem Addresses.comes_memory (h : Addresses s volume names ctx c) (hm : m.Doubles s volume) :
    Comes Memory.provider (fun _ => Memory.Willing m) (Path.canonical names) ctx.double c m := by
  have hw := hm.willing
  cases h with
  | @owned url hsession htarget hreach hvolume hpath =>
      have hup : m.unreachable = false := congrArg Memory.State.unreachable hm.fresh
      refine .owned (v := ()) (by simp [Context.double, hsession]) htarget hpath ?_ ?_
      · simp [Memory.provider, Memory.State.connect, hup]
      · exact ⟨rfl, rfl, hw.rejectedKey, hw.failReadAfter, hw.failClose, hw.unfinished⟩
  | supplied hsession htarget hpath =>
      exact .supplied (v := ()) (by simp [Context.double, hsession]) htarget hpath hw

/-- One read of an export gives as much of a file as was asked for, if that is not more than the
most that it gives or if the file is not. -/
theorem sameReads_of_le {data : Contents} {chunk : Nat}
    (h : chunk ≤ Export.readLimit ∨ data.size ≤ Export.readLimit) :
    SameReads data (min (Copy.readSize chunk : Nat) Export.readLimit) (Copy.readSize chunk) := by
  rcases h with hle | hle
  · apply SameReads.of_eq
    unfold Copy.readSize Export.readLimit at *
    simp only
    omega
  · exact .of_size_le hle _

theorem Addresses.execute_double {sink : Sink} (hc : c.Addresses s volume names ctx)
    (hs : s.Exports volume) (hm : m.Doubles s volume)
    (hquiet : ∀ v id, ctx.session = some v → Granted s volume names id →
      s.place v ≠ .log (.file id))
    (hsink : ∀ id, Granted s volume names id → ctx.chunk ≤ Export.readLimit ∨
      (s.tree.contents id).size ≤ Export.readLimit ∨ sink.answers = []) :
    let r := c.execute Export.provider ctx { state := s, sink := sink }
    let r' := c.execute Memory.provider ctx.double { state := m, sink := sink }
    r.1 = r'.1 ∧ r.2.sink.received = r'.2.sink.received ∧
      r.2.sink.flushes = r'.2.sink.flushes := by
  intro r r'
  obtain ⟨v, w, hserving, hw, hend, hgot⟩ := (Export.Serving.obliging s ..).execute
    (w := { state := s, sink := sink }) (hc.comes_export hs hquiet)
  obtain ⟨u, w', hwilling, hw', hend', hgot'⟩ := (Memory.Willing.obliging m).execute
    (w := { state := m, sink := sink }) (hc.comes_memory hm)
  have halike : Alike
      (Copy.copy Export.provider v (Path.canonical names) c.operand ctx.chunk w)
      (Copy.copy Memory.provider u (Path.canonical names) c.operand ctx.double.chunk w') := by
    have hsame : w.sink = w'.sink := hw.trans hw'.symm
    have hcontents := hm.contents names
    cases hid : s.regular? volume names with
    | none =>
        rw [hid] at hcontents
        exact (hserving.offers_absent hs hid (min · Export.readLimit)).copy_alike
          (hwilling.offers_absent hcontents id) hsame nofun _
    | some file =>
        rw [hid] at hcontents
        by_cases hheld : ∃ f kind, s.Holds f file kind
        · exact (hserving.offers_locked hs hid hheld (min · Export.readLimit)).copy_alike
            (hwilling.offers_locked hcontents ((hm.locked names file hid).mpr hheld) id) hsame
            nofun _
        · have hmost : SameReads (s.tree.contents file)
              (min (Copy.readSize ctx.chunk : Nat) Export.readLimit)
              (id (Copy.readSize ctx.chunk : Nat)) ∨ w.sink.answers = [] := by
            rw [hw]
            rcases hsink file ⟨hid, hheld⟩ with hle | hle | hanswers
            · exact .inl (sameReads_of_le (.inl hle))
            · exact .inl (sameReads_of_le (.inr hle))
            · exact .inr hanswers
          exact (hserving.offers_granted hs hid ⟨hid, hheld⟩ hheld).copy_alike
            (hwilling.offers_granted hcontents fun hl => hheld ((hm.locked names file hid).mp hl))
            hsame (by rintro _ ⟨⟩; exact hmost) _
  refine ⟨?_, ?_, ?_⟩
  · rw [hend, hend']
    exact Outcome.ofResult_congr halike.blamed
  · rw [hgot, hgot']
    exact halike.received
  · rw [hgot, hgot']
    exact halike.flushes

/-- One read of a double gives a file whole of which one read of the export gives a part only, and a
sink that is to fail its second write sees that. -/
theorem invoke_large_told_apart {words : List Text.Glyphs} {id n : Nat} {e : IoError}
    (hs : s.Exports volume) (hm : m.Doubles s volume)
    (hparse : parse words ctx.session.isSome = .ok c) (hc : c.Addresses s volume names ctx)
    (hquiet : ∀ v id, ctx.session = some v → Granted s volume names id →
      s.place v ≠ .log (.file id))
    (hid : Granted s volume names id) (hlarge : Export.readLimit < (s.tree.contents id).size)
    (hchunk : (s.tree.contents id).size ≤ ctx.chunk) (hn : (s.tree.contents id).size ≤ n)
    (he : e.isInterrupted = false) :
    let sink : Sink := { answers := [.ok n, .error e] }
    (invoke Export.provider words ctx { state := s, sink := sink }).1 =
        .failure (.copy .transfer) ∧
      (invoke Memory.provider words ctx.double { state := m, sink := sink }).1 = .success := by
  intro sink
  have hconnected : ctx.double.session.isSome = ctx.session.isSome := Option.isSome_map ..
  simp only [invoke, run, hconnected, hparse]
  obtain ⟨v, w, hserving, hw, hend, -⟩ := (Export.Serving.obliging s ..).execute
    (w := { state := s, sink := sink }) (hc.comes_export hs hquiet)
  obtain ⟨u, w', hwilling, hw', hend', -⟩ := (Memory.Willing.obliging m).execute
    (w := { state := m, sink := sink }) (hc.comes_memory hm)
  have hcontents : m.contents? (Path.canonical names) = some (s.tree.contents id) := by
    rw [hm.contents, hid.1]
    rfl
  have hfree : Path.canonical names ∉ m.foreignLocks := mt (hm.locked names id hid.1).mp hid.2
  have hsize : (Copy.readSize ctx.chunk : Nat) = ctx.chunk := Nat.max_eq_left (by omega)
  constructor
  · have hpart : min (Copy.readSize ctx.chunk : Nat) Export.readLimit <
        (s.tree.contents id).size := by omega
    rw [hend, (hserving.offers_granted hs hid.1 hid hid.2).copy_cut hpart hn he (by rw [hw])]
    rfl
  · have hwhole : (s.tree.contents id).size ≤ (Copy.readSize ctx.double.chunk : Nat) := by
      rw [Context.double, hsize]
      exact hchunk
    rw [hend', (hwilling.offers_granted hcontents hfree).copy_whole hwhole (by omega) hn
      (by rw [hw']) (by rw [hw'])]
    rfl

/-- A command that names a file of a volume of an export ends on a double of this volume as it
does on the export, and its sink gets the same. The double keeps no log, and one read of it gives as
much as was asked for: a session of the caller must not say anything into the file that is copied,
and a sink whose single writes are settled beforehand must not see that one read of an export gave
less. -/
theorem invoke_double {words : List Text.Glyphs} {sink : Sink} (hs : s.Exports volume)
    (hm : m.Doubles s volume)
    (hwords : ∀ c, parse words ctx.session.isSome = .ok c → c.Addresses s volume names ctx)
    (hquiet : ∀ v id, ctx.session = some v → Granted s volume names id →
      s.place v ≠ .log (.file id))
    (hsink : ∀ id, Granted s volume names id → ctx.chunk ≤ Export.readLimit ∨
      (s.tree.contents id).size ≤ Export.readLimit ∨ sink.answers = []) :
    let r := invoke Export.provider words ctx { state := s, sink := sink }
    let r' := invoke Memory.provider words ctx.double { state := m, sink := sink }
    r.1 = r'.1 ∧ r.2.2.sink.received = r'.2.2.sink.received ∧
      r.2.2.sink.flushes = r'.2.2.sink.flushes := by
  have hconnected : ctx.double.session.isSome = ctx.session.isSome := Option.isSome_map ..
  simp only [invoke, run, hconnected]
  cases hparse : parse words ctx.session.isSome with
  | error e => exact ⟨rfl, rfl, rfl⟩
  | ok c => exact (hwords c hparse).execute_double hs hm hquiet hsink

/-- A client holds a lock for reading on one of two files, and the other one is copied. The host is
one of the machine's interfaces. -/
theorem invoke_double_beside_reader :
    let name (text : String) (h : text ≠ "" ∧ (text ≠ "." ∧ text ≠ "..") ∧ '/' ∉ text.toList) :
      Name := ⟨text, h.1, h.2.1, h.2.2⟩
    let volume := name "v" (by decide)
    let names := [name "f" (by decide)]
    let s : Export.State := {
      root := "/r"
      now := { year := 2024, month := 1, day := 1 }
      tree := {
        nodes := [(["v"], .directory), (["v", "f"], .file 0), (["v", "g"], .file 1)]
        files := [#[1, 2, 3], #[4]] }
      handles := [some { file := 1, path := "/g", volume := 0, lock := some .read }]
      network := { interfaces := .ok [.v4 0xc0a80105] } }
    let m : Memory.State := {
      files := [("/f", #[1, 2, 3]), ("/g", #[4])]
      foreignLocks := ["/g"] }
    let words := ["gfcat", "-d", "-o", "x.a=1", "glfs://192.168.1.5/v/f"].map Text.Glyphs.ofString
    let c : Command := ⟨.locator ⟨"192.168.1.5", "v", "/f", 24007⟩, [⟨"x", "a", "1"⟩], true,
      "glfs://192.168.1.5/v/f"⟩
    let ctx : Context Nat := { chunk := 2 }
    s.Exports volume ∧ m.Doubles s volume ∧ parse words ctx.session.isSome = .ok c ∧
      (∀ c, parse words ctx.session.isSome = .ok c → c.Addresses s volume names ctx) ∧
      ctx.session = none ∧ ctx.chunk ≤ Export.readLimit ∧
      (invoke Export.provider words ctx { state := s }).1 = .success ∧
      (invoke Export.provider words ctx { state := s }).2.2.sink.received = [1, 2, 3] ∧
      (invoke Export.provider words ctx { state := s }).2.2.sink.flushes = 1 := by
  intro name volume names s m words c ctx
  have hs : s.Exports volume :=
    Export.State.exports_of_regulars (.of_nodes (by decide)) rfl (by decide) (by decide)
  have hm : m.Doubles s volume := by
    have hdouble : s.double volume = m := rfl
    rw [← hdouble]
    exact s.doubles_double volume
  have hparse : parse words ctx.session.isSome = .ok c := rfl
  have hreach : Export.reach s.network ⟨"192.168.1.5", "v", "/f", 24007⟩ = .ok () := by
    decide +kernel +zetaReduce
  have hwords c (h : parse words ctx.session.isSome = .ok c) : c.Addresses s volume names ctx := by
    rw [hparse] at h
    cases h
    exact .owned rfl rfl hreach rfl (by decide)
  have hle : ctx.chunk ≤ Export.readLimit := by decide
  have hquiet v id (h : ctx.session = some v) : Granted s volume names id →
      s.place v ≠ .log (.file id) := by
    cases h
  obtain ⟨hend, hreceived, hflushes⟩ :=
    @invoke_double s m volume names ctx words {} hs hm hwords hquiet fun _ _ => .inl hle
  refine ⟨hs, hm, hparse, hwords, rfl, hle, ?_⟩
  -- It is enough to run the double.
  rw [hend, hreceived, hflushes]
  decide +kernel +zetaReduce

/-- A sink that takes one write and fails the next tells a file of more than one read from its
double, and so does a sink with room for no more than the file when the session of the caller says
into the file that it is opened. -/
theorem invoke_double_told_apart :
    let name (text : String) (h : text ≠ "" ∧ (text ≠ "." ∧ text ≠ "..") ∧ '/' ∉ text.toList) :
      Name := ⟨text, h.1, h.2.1, h.2.2⟩
    let volume := name "v" (by decide)
    let names := [name "f" (by decide)]
    let s (data : Contents) (volumes : List Export.Volume) : Export.State := {
      root := "/r"
      now := { year := 2024, month := 1, day := 1 }
      tree := { nodes := [(["v"], .directory), (["v", "f"], .file 0)], files := [data] }
      volumes := volumes }
    let large := s (Array.replicate (Export.readLimit + 1) 0) []
    let chunk := 3 * 1024 * 1024
    let owned := ["gfcat", "glfs://localhost/v/f"].map Text.Glyphs.ofString
    let once : Sink := { answers := [.ok chunk, .error (.errno Errno.inputOutput)] }
    let logged := s "hello".toUTF8.data
      [{ brick := "/r/v", name := "v", log := some (.file 0, .debug) }]
    let ctx : Context Nat := { session := some 0 }
    let supplied := ["gfcat", "/f"].map Text.Glyphs.ofString
    let small : Sink := { room := some 5, refusal := some (.errno 28) }
    (large.Exports volume ∧ (large.double volume).Doubles large volume ∧
      (∀ c, parse owned false = .ok c → c.Addresses large volume names { chunk := chunk }) ∧
      (invoke Export.provider owned { chunk := chunk } { state := large, sink := once }).1 =
        .failure (.copy .transfer) ∧
      (invoke Memory.provider owned { chunk := chunk }
        { state := large.double volume, sink := once }).1 = .success) ∧
    logged.Exports volume ∧ (logged.double volume).Doubles logged volume ∧
      (∀ c, parse supplied true = .ok c → c.Addresses logged volume names ctx) ∧
      (invoke Export.provider supplied ctx { state := logged, sink := small }).1 =
        .failure (.copy .transfer) ∧
      (invoke Memory.provider supplied ctx.double
        { state := logged.double volume, sink := small }).1 = .success := by
  intro name volume names s large chunk owned once logged ctx supplied small
  have hs (data : Contents) (volumes : List Export.Volume) : (s data volumes).Exports volume := by
    have hproper : ({ nodes := [(["v"], .directory), (["v", "f"], .file 0)] } : Tree).Proper :=
      .of_nodes (by decide)
    have hregulars : (s data volumes).regulars volume = [(names, 0)] := rfl
    refine Export.State.exports_of_regulars (hproper.congr rfl) rfl ?_ ?_
    · show Path.rejection? (Path.join "/r" "v") = none
      decide
    · rw [hregulars]
      show ∀ x ∈ [(names, 0)],
        Path.rejection? ((Path.texts x.1).foldl Path.join (Path.join "/r" "v")) = none
      decide
  have hm (data : Contents) (volumes : List Export.Volume) :
      ((s data volumes).double volume).Doubles (s data volumes) volume :=
    (s data volumes).doubles_double volume
  have hparse : parse owned false =
      .ok ⟨.locator ⟨"localhost", "v", "/f", 24007⟩, [], false, "glfs://localhost/v/f"⟩ := rfl
  have howned c (h : parse owned false = .ok c) :
      c.Addresses large volume names { chunk := chunk } := by
    rw [hparse] at h
    cases h
    exact .owned rfl rfl rfl rfl (by decide)
  have hsupplied c (h : parse supplied true = .ok c) : c.Addresses logged volume names ctx := by
    cases h
    exact .supplied rfl rfl (by decide) rfl rfl (by decide)
  have hgranted : Granted large volume names 0 := by
    refine ⟨rfl, ?_⟩
    rintro ⟨f, kind, h, hh, -⟩
    cases hh
  have hsize : (large.tree.contents 0).size = Export.readLimit + 1 := Array.size_replicate
  have hle : (large.tree.contents 0).size ≤ chunk := by
    rw [hsize]
    decide
  have hother : IoError.isInterrupted (.errno Errno.inputOutput) = false := rfl
  have hquiet v id (h : (none : Option Nat) = some v) : Granted large volume names id →
      large.place v ≠ .log (.file id) := by
    cases h
  obtain ⟨hexport, hmemory⟩ := invoke_large_told_apart (s := large) (hs _ _) (hm _ _) hparse
    (howned _ hparse) hquiet hgranted (by omega) hle hle hother
  refine ⟨⟨hs _ _, hm _ _, howned, hexport, hmemory⟩, hs _ _, hm _ _, hsupplied, ?_, ?_⟩
  · decide +kernel +zetaReduce
  · decide +kernel +zetaReduce

end Command

end LockedCat
