import LockedCat.Proofs.Commands
import LockedCat.Proofs.MemoryCopies
import LockedCat.Proofs.Protocol

/-!
# Invocations in a shell

A shell holds a session and runs one command line after the other through it. Main statement: the
invocations leave the session as it was, none of them knows what came before it, and the sink holds
what they delivered in their order. The flags that configure a session say nothing here.
-/

namespace LockedCat

variable {σ V F : Type}

/-! ## Calls -/

/-- Acts that are about a session, and not about a file in it or about the sink. -/
def Act.isOfSession : Act V F → Bool
  | connect .. | setOption .. | setLogging .. | finish .. => true
  | _ => false

theorem CopyTrace.not_isOfSession {v : V} {path target : String} {chunk : Nat}
    {as : List (Act V F)} {r : Except Error Nat} (h : CopyTrace v path target chunk as r) :
    ∀ a ∈ as, a.isOfSession = false := by
  intro a ha
  cases hs : a.isOfSession with
  | false => rfl
  | true =>
      have hrank : a.isCall = true ∧ (a.rank < 3 ∨ 6 < a.rank) := by
        unfold Act.isOfSession at hs
        split at hs
        · exact ⟨rfl, .inl (by simp [Act.rank])⟩
        · exact ⟨rfl, .inl (by simp [Act.rank])⟩
        · exact ⟨rfl, .inl (by simp [Act.rank])⟩
        · exact ⟨rfl, .inr (by simp [Act.rank])⟩
        · cases hs
      have := h.calls.rank_mem a (List.mem_filter.mpr ⟨ha, hrank.1⟩)
      omega

namespace Command

open CommandLine

/-- A command in the context of a session does nothing to the session. -/
theorem execute_supplied (p : Provider σ V F) (c : Command) {ctx : Context V} {v : V}
    (hs : ctx.session = some v) (w : World σ) :
    ∃ as, Acts p w as (c.execute p ctx w).2 ∧ ∀ a ∈ as, a.isOfSession = false := by
  obtain ⟨as, es, r, hc, -, hran, -⟩ := c.execute_course p ctx w
  refine ⟨as, hc.acts, ?_⟩
  cases hran with
  | refused => simp
  | suited _ ht =>
      cases ht with
      | alone hnone => simp [hs] at hnone
      | within _ _ hcopy => exact hcopy.not_isOfSession

theorem invoke_supplied (p : Provider σ V F) (words : List Text.Glyphs) {ctx : Context V} {v : V}
    (hs : ctx.session = some v) (w : World σ) :
    ∃ as, Acts p w as (invoke p words ctx w).2.2 ∧ ∀ a ∈ as, a.isOfSession = false := by
  unfold invoke run
  cases parse words ctx.session.isSome with
  | error e => exact ⟨[], .refl w, by simp⟩
  | ok c => exact c.execute_supplied p hs w

/-! ## Invocations, one after the other -/

/-- How an invocation ends, and the bytes that it delivers. -/
def answer (p : Provider σ V F) (ctx : Context V) (w : World σ) (words : List Text.Glyphs) :
    Outcome × List UInt8 :=
  ((invoke p words ctx w).1,
    (invoke p words ctx w).2.2.sink.received.drop w.sink.received.length)

/-- The world after invocations in one context. -/
def invokeAll (p : Provider σ V F) (ctx : Context V) :
    List (List Text.Glyphs) → World σ → World σ
  | [], w => w
  | words :: rest, w => invokeAll p ctx rest (invoke p words ctx w).2.2

/-- The answers of invocations in one context, each where the one before it has left the world. -/
def answers (p : Provider σ V F) (ctx : Context V) :
    List (List Text.Glyphs) → World σ → List (Outcome × List UInt8)
  | [], _ => []
  | words :: rest, w => answer p ctx w words :: answers p ctx rest (invoke p words ctx w).2.2

/-! ## One invocation -/

/-- What a command line that was read comes to on a volume in memory that is the caller's. -/
def settled (m : Memory.State) (flushFailure : Option IoError) :
    Except (Outcome × Shown) Command → Outcome × List UInt8
  | .error (o, _) => (o, [])
  | .ok c =>
      match c.target with
      | .locator _ => (.failure .parse, [])
      | .path path =>
          let (r, bytes) := Memory.outcome m path.text c.operand flushFailure
          (.ofResult r, bytes)

/-- The session and what it counts as open are as before, and the sink gained these bytes. -/
structure Frame (w : World Memory.State) (bytes : List UInt8) (w' : World Memory.State) : Prop where
  sink : w.sink.Gained bytes w'.sink
  kept : Memory.Kept w.state w'.state
  openHandles : w'.state.openHandles = w.state.openHandles

namespace Frame

variable {w w₁ w' : World Memory.State} {bytes more : List UInt8}

theorem refl (ha : w.sink.answers = []) (hl : w.sink.limit = none) : Frame w [] w :=
  ⟨.refl ha hl, .refl _, rfl⟩

theorem trans (h : Frame w bytes w₁) (h' : Frame w₁ more w') : Frame w (bytes ++ more) w' :=
  ⟨h.sink.trans h'.sink, h.kept.trans h'.kept, h'.openHandles.trans h.openHandles⟩

/-- What command lines come to is as before. -/
theorem settled (h : Frame w bytes w') (r : Except (Outcome × Shown) Command) :
    settled w'.state w'.sink.flushFailure r = settled w.state w.sink.flushFailure r := by
  unfold Command.settled
  simp only [h.kept.outcome, h.sink.flushFailure]

end Frame

variable {ctx : Context Unit} {w : World Memory.State}

theorem execute_settled (c : Command) (hs : ctx.session = some ()) (ha : w.sink.answers = [])
    (hl : w.sink.limit = none) :
    (c.execute Memory.provider ctx w).1 = (settled w.state w.sink.flushFailure (.ok c)).1 ∧
      Frame w (settled w.state w.sink.flushFailure (.ok c)).2
        (c.execute Memory.provider ctx w).2 := by
  unfold execute carryOut settled
  cases ht : c.target with
  | locator url =>
      simp only [hs, ht]
      exact ⟨trivial, .refl ha hl, .refl _, rfl⟩
  | path path =>
      simp only [hs, ht, copyWithin, Session.close]
      generalize hw : (if c.directives.isEmpty then w
        else w.debug "session is already configured, ignoring translator options") = w₀
      have hsame : w₀.state = w.state ∧ w₀.sink = w.sink := by
        rw [← hw]
        split <;> exact ⟨rfl, rfl⟩
      have hcopy := Memory.copy_cameTo path.text c.operand ctx.chunk w₀
        (hsame.2 ▸ ha) (hsame.2 ▸ hl)
      cases hrun : Copy.copy Memory.provider () path.text c.operand ctx.chunk w₀ with
      | mk result w₁ =>
          rw [hrun] at hcopy
          obtain ⟨hresult, hsink, hkept, hopen⟩ := hcopy
          rw [hsame.1, hsame.2] at hresult hsink
          rw [hsame.1] at hkept hopen
          have hresult : result = _ := hresult
          subst hresult
          cases (Memory.outcome w.state path.text c.operand w.sink.flushFailure).1 with
          | ok n => exact ⟨rfl, hsink, hkept, hopen⟩
          | error e => exact ⟨rfl, hsink, hkept, hopen⟩

theorem invoke_settled (words : List Text.Glyphs) (hs : ctx.session = some ())
    (ha : w.sink.answers = []) (hl : w.sink.limit = none) :
    answer Memory.provider ctx w words = settled w.state w.sink.flushFailure (parse words true) ∧
      Frame w (answer Memory.provider ctx w words).2 (invoke Memory.provider words ctx w).2.2 := by
  have hinvoke : (invoke Memory.provider words ctx w).1 =
        (settled w.state w.sink.flushFailure (parse words true)).1 ∧
      Frame w (settled w.state w.sink.flushFailure (parse words true)).2
        (invoke Memory.provider words ctx w).2.2 := by
    unfold invoke run
    rw [hs, Option.isSome_some]
    cases parse words true with
    | error e => exact ⟨rfl, .refl ha hl⟩
    | ok c => exact c.execute_settled hs ha hl
  have hanswer : answer Memory.provider ctx w words =
      settled w.state w.sink.flushFailure (parse words true) := by
    refine Prod.ext hinvoke.1 ?_
    rw [answer, hinvoke.2.sink.received, List.drop_left]
  exact ⟨hanswer, hanswer ▸ hinvoke.2⟩

/-! ## Many invocations -/

theorem invokeAll_frame (lines : List (List Text.Glyphs)) (hs : ctx.session = some ())
    (ha : w.sink.answers = []) (hl : w.sink.limit = none) :
    (∃ as, Acts Memory.provider w as (invokeAll Memory.provider ctx lines w) ∧
      ∀ a ∈ as, a.isOfSession = false) ∧
    Frame w ((answers Memory.provider ctx lines w).flatMap Prod.snd)
      (invokeAll Memory.provider ctx lines w) ∧
    answers Memory.provider ctx lines w = lines.map (answer Memory.provider ctx w) := by
  induction lines generalizing w with
  | nil => exact ⟨⟨[], .refl w, by simp⟩, .refl ha hl, rfl⟩
  | cons words rest ih =>
      obtain ⟨as, hacts, has⟩ := invoke_supplied Memory.provider words hs w
      obtain ⟨-, hframe⟩ := invoke_settled words hs ha hl
      obtain ⟨⟨bs, hacts', hbs⟩, hframe', hanswers⟩ := ih hframe.sink.answers hframe.sink.limit
      refine ⟨⟨as ++ bs, hacts.trans hacts', ?_⟩, hframe.trans hframe', ?_⟩
      · intro a ha
        rcases List.mem_append.mp ha with ha | ha
        · exact has a ha
        · exact hbs a ha
      · -- What an invocation comes to depends on the world only in what the first one keeps.
        have hsame (words' : List Text.Glyphs) :
            answer Memory.provider ctx (invoke Memory.provider words ctx w).2.2 words' =
              answer Memory.provider ctx w words' := by
          rw [(invoke_settled words' hs hframe.sink.answers hframe.sink.limit).1,
            (invoke_settled words' hs ha hl).1, hframe.settled]
        rw [answers, hanswers, List.map_cons]
        congr 1
        exact List.map_congr_left fun words' _ => hsame words'

/-! ## Flags that say nothing -/

/-- A group that only configures a session, and does so rightly. -/
def isIdle : Group → Bool
  | .debug _ | .port .. => true
  | .option _ text _ => (Directive.parse text).isOk
  | .operand .. => false

/-- The words of a command line that is made of groups. -/
def lineOf (program : Text.Glyphs) (gs : List Group) : List Text.Glyphs :=
  program :: (gs.flatMap Group.words).map .ofString

theorem parseAll_isOk (raws : List String) :
    (Directive.parseAll raws).isOk = raws.all fun raw => (Directive.parse raw).isOk := by
  induction raws with
  | nil => rfl
  | cons raw rest ih =>
      rw [List.all_cons, ← ih, Directive.parseAll]
      cases Directive.parse raw with
      | error e => rfl
      | ok d => cases Directive.parseAll rest <;> rfl

/-- What a command line made of groups comes to is said by its operand, unless that is missing or
one of the options is at fault. -/
theorem settled_lineOf (m : Memory.State) (flushFailure : Option IoError) {gs : List Group}
    (hc : Compatible gs) (program : Text.Glyphs) :
    settled m flushFailure (parse (lineOf program gs) true) =
      match operandOf gs with
      | none => (.failure .parse, [])
      | some operand =>
          if (optionsOf gs).all fun raw => (Directive.parse raw).isOk then
            match VolumePath.parse operand with
            | .error e => (.failure e.kind, [])
            | .ok path =>
                let (r, bytes) := Memory.outcome m path.text operand flushFailure
                (.ofResult r, bytes)
          else (.failure .parse, []) := by
  cases ho : operandOf gs with
  | none =>
      obtain ⟨given, hread⟩ := read_groups_missing hc ho
      have hread : CommandLine.read ((lineOf program gs).drop 1) = _ := hread
      simp only [parse, hread, settled]
      rfl
  | some operand =>
      have hread : CommandLine.read ((lineOf program gs).drop 1) = _ := read_groups hc ho
      rw [parse_of_read true hread, ofSettings, ← parseAll_isOk]
      cases hd : Directive.parseAll (optionsOf gs) with
      | error e =>
          show (Outcome.failure e.kind, []) = (Outcome.failure .parse, [])
          rw [Directive.parseAll_error_kind hd]
      | ok ds =>
          cases hp : VolumePath.parse operand with
          | error e =>
              have ht : Target.read operand (portOf gs) true = .error e := by
                rw [Target.read, if_pos rfl, hp]
                rfl
              simp only [ht, hp]
              rfl
          | ok path =>
              have ht : Target.read operand (portOf gs) true = .ok (.path path) := by
                rw [Target.read, if_pos rfl, hp]
                rfl
              simp only [ht, hp]
              rfl

theorem operandOf_filter (gs : List Group) :
    operandOf (gs.filter fun g => !isIdle g) = operandOf gs := by
  unfold operandOf
  rw [List.filterMap_filter]
  congr 2
  funext g
  cases g <;> simp [isIdle, Group.operand?]

theorem all_optionsOf_filter (gs : List Group) :
    ((optionsOf (gs.filter fun g => !isIdle g)).all fun raw => (Directive.parse raw).isOk) =
      (optionsOf gs).all fun raw => (Directive.parse raw).isOk := by
  induction gs with
  | nil => rfl
  | cons g rest ih =>
      cases g with
      | debug | port | operand => simpa [optionsOf, isIdle, Group.option?] using ih
      | option manner text admits =>
          cases hok : (Directive.parse text).isOk
          · simp [optionsOf, isIdle, Group.option?, hok]
          · simpa [optionsOf, isIdle, Group.option?, hok] using ih

/-- A shell's session is left alone, and no invocation knows of another. Flags that configure a
session make no difference to an invocation. -/
theorem invokeAll_supplied (ctx : Context Unit) (lines : List (List Text.Glyphs))
    (w : World Memory.State) (hs : ctx.session = some ())
    (ha : w.sink.answers = []) (hl : w.sink.limit = none) :
    let w' := invokeAll Memory.provider ctx lines w
    (∃ as, Acts Memory.provider w as w' ∧ ∀ a ∈ as, a.isOfSession = false) ∧
    (Memory.Kept w.state w'.state ∧ w'.state.openHandles = w.state.openHandles) ∧
    w'.sink.received = w.sink.received ++ (answers Memory.provider ctx lines w).flatMap Prod.snd ∧
    answers Memory.provider ctx lines w = lines.map (answer Memory.provider ctx w) ∧
    ∀ program program' gs gs', Compatible gs → Compatible gs' →
      (gs.filter fun g => !isIdle g) = gs'.filter (fun g => !isIdle g) →
      answer Memory.provider ctx w (lineOf program gs) =
        answer Memory.provider ctx w (lineOf program' gs') := by
  obtain ⟨hacts, hframe, hanswers⟩ := invokeAll_frame lines hs ha hl
  refine ⟨hacts, ⟨hframe.kept, hframe.openHandles⟩, hframe.sink.received, hanswers, ?_⟩
  intro program program' gs gs' hc hc' hsame
  rw [(invoke_settled _ hs ha hl).1, (invoke_settled _ hs ha hl).1, settled_lineOf _ _ hc,
    settled_lineOf _ _ hc', ← operandOf_filter gs, ← all_optionsOf_filter gs, hsame,
    operandOf_filter, all_optionsOf_filter]

/-- A file whose reads fail after two bytes is asked for twice, with a line in between that is
refused. -/
theorem invokeAll_supplied_faulty :
    let ctx : Context Unit := { session := some () }
    let w : World Memory.State := { state := {
      files := [("/file", #[1, 2, 3])], failReadAfter := some 2, openHandles := 4 } }
    let lines := [["cat", "-d", "/file"], ["cat", "-x"], ["cat", "/file"]].map
      (·.map Text.Glyphs.ofString)
    let w' := invokeAll Memory.provider ctx lines w
    ctx.session = some () ∧ w.sink.answers = [] ∧ w.sink.limit = none ∧
      answers Memory.provider ctx lines w =
        [(.failure (.copy .transfer), [1, 2]), (.failure .usage, []),
          (.failure (.copy .transfer), [1, 2])] ∧
      w'.sink.received = [1, 2, 1, 2] ∧ w'.state.openHandles = 4 := by
  intro ctx w lines w'
  obtain ⟨-, ⟨-, hopen⟩, hreceived, hanswers, -⟩ :=
    invokeAll_supplied ctx lines w rfl rfl rfl
  have hvalue : answers Memory.provider ctx lines w =
      [(.failure (.copy .transfer), [1, 2]), (.failure .usage, []),
        (.failure (.copy .transfer), [1, 2])] := by
    rw [hanswers, List.map_congr_left fun words _ => (invoke_settled words rfl rfl rfl).1]
    rfl
  rw [hvalue] at hreceived
  exact ⟨rfl, rfl, rfl, hvalue, hreceived, hopen⟩

end Command

end LockedCat
