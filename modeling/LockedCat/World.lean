import LockedCat.Provider
import LockedCat.Sink

/-!
# The world of a command

A command acts on a storage runtime and on a sink, and it reports events. All of this is written
down in a journal in the order in which it happened, each call with its answer.
-/

namespace LockedCat

/-- The calls to a provider other than reads. -/
inductive Call where
  | connect (url : Locator)
  | setOption (directive : Directive)
  | setLogging (sink : String) (level : Level)
  | openFile (path : String)
  | lock (kind : LockKind)
  | close
  | finish
deriving DecidableEq, Repr

/-- One line of the journal. -/
inductive Entry where
  | event (event : Event)
  /-- A line on the standard error stream. -/
  | line (text : String)
  /-- A line in a log of its own. -/
  | record (log : Nat) (text : String)
  | call (call : Call) (failure : Option Chain)
  | read (size : Nat) (answer : Except IoError (List UInt8))
  | write (bytes : List UInt8) (answer : Except IoError Nat)
  | flush (failure : Option IoError)

def Note.entry : Note → Entry
  | event e => .event e
  | line text => .line text
  | record log text => .record log text

/-- The event of a journal's line that is one. -/
def Entry.event? : Entry → Option Event
  | event e => some e
  | _ => none

/-- What a line of the journal puts on the standard error stream by itself. -/
def Entry.line? : Entry → Option String
  | line text => some text
  | _ => none

structure World (σ : Type) where
  state : σ
  sink : Sink := {}
  journal : Array Entry := #[]

namespace World

variable {σ V F ε α : Type}

/-- The events of the journal, in order. -/
def events (w : World σ) : List Event := w.journal.toList.filterMap Entry.event?

/-- What a storage runtime put on the standard error stream. -/
def printed (w : World σ) : String := String.join (w.journal.toList.filterMap Entry.line?)

/-- Reports an event. -/
def report (w : World σ) (level : Level) (message : String) : World σ :=
  { w with journal := w.journal.push (.event ⟨level, message⟩) }

def debug (w : World σ) (message : String) : World σ := w.report .debug message

/-- How a call failed, if it did. -/
def failure (text : ε → Chain) : Except ε α → Option Chain
  | .ok _ => none
  | .error e => some (text e)

/-- Accepts a provider's reply to a call. -/
def accept (w : World σ) (entry : Except ε α → Entry) (r : Reply σ ε α) : Except ε α × World σ :=
  (r.result, { w with
    state := r.state
    journal := w.journal.push (entry r.result) ++ r.notes.map Note.entry })

def connect (w : World σ) (p : Provider σ V F) (url : Locator) : Except Chain V × World σ :=
  w.accept (fun r => .call (.connect url) (failure id r)) (p.connect url w.state)

def setOption (w : World σ) (p : Provider σ V F) (v : V) (d : Directive) :
    Except Chain Unit × World σ :=
  w.accept (fun r => .call (.setOption d) (failure id r)) (p.setOption v d w.state)

def setLogging (w : World σ) (p : Provider σ V F) (v : V) (sink : String) (level : Level) :
    Except Chain Unit × World σ :=
  w.accept (fun r => .call (.setLogging sink level) (failure id r))
    (p.setLogging v sink level w.state)

def openFile (w : World σ) (p : Provider σ V F) (v : V) (path : String) :
    Except IoError F × World σ :=
  w.accept (fun r => .call (.openFile path) (failure IoError.chain r)) (p.openFile v path w.state)

def lock (w : World σ) (p : Provider σ V F) (f : F) (kind : LockKind) :
    Except IoError Unit × World σ :=
  w.accept (fun r => .call (.lock kind) (failure IoError.chain r)) (p.lock f kind w.state)

def read (w : World σ) (p : Provider σ V F) (f : F) (size : Nat) :
    Except IoError (List UInt8) × World σ :=
  w.accept (.read size) (p.read f size w.state)

def close (w : World σ) (p : Provider σ V F) (f : F) : Except IoError Unit × World σ :=
  w.accept (fun r => .call .close (failure IoError.chain r)) (p.close f w.state)

def finish (w : World σ) (p : Provider σ V F) (v : V) : Except Chain Unit × World σ :=
  w.accept (fun r => .call .finish (failure id r)) (p.finish v w.state)

/-- One write to the sink. -/
def write : World σ → List UInt8 → Except IoError Nat × World σ
  | ⟨state, sink, journal⟩, bytes =>
      let (answer, sink) := sink.write bytes
      (answer, ⟨state, sink, journal.push (.write bytes answer)⟩)

/-- Flushes the sink. -/
def flush : World σ → Option IoError × World σ
  | ⟨state, sink, journal⟩ =>
      let (failure, sink) := sink.flush
      (failure, ⟨state, sink, journal.push (.flush failure)⟩)

@[simp] theorem state_report (w : World σ) (level : Level) (message : String) :
    (w.report level message).state = w.state := rfl

@[simp] theorem sink_report (w : World σ) (level : Level) (message : String) :
    (w.report level message).sink = w.sink := rfl

@[simp] theorem state_write (w : World σ) (bytes : List UInt8) :
    (w.write bytes).2.state = w.state := rfl

@[simp] theorem sink_write (w : World σ) (bytes : List UInt8) :
    (w.write bytes).2.sink = (w.sink.write bytes).2 := rfl

@[simp] theorem fst_write (w : World σ) (bytes : List UInt8) :
    (w.write bytes).1 = (w.sink.write bytes).1 := rfl

theorem write_eq {w w' : World σ} {bytes : List UInt8} {r : Except IoError Nat}
    (h : w.write bytes = (r, w')) :
    (w.sink.write bytes).1 = r ∧ w'.sink = (w.sink.write bytes).2 ∧ w'.state = w.state := by
  rw [← fst_write, ← sink_write, ← state_write w bytes, h]
  exact ⟨rfl, rfl, rfl⟩

@[simp] theorem state_accept (w : World σ) (entry : Except ε α → Entry) (r : Reply σ ε α) :
    (w.accept entry r).2.state = r.state := rfl

@[simp] theorem sink_accept (w : World σ) (entry : Except ε α → Entry) (r : Reply σ ε α) :
    (w.accept entry r).2.sink = w.sink := rfl

@[simp] theorem fst_accept (w : World σ) (entry : Except ε α → Entry) (r : Reply σ ε α) :
    (w.accept entry r).1 = r.result := rfl

/-- Writes all the bytes, a part at a time. A copy only asks for all of them to be written; that an
interrupted write is made again and that a write that takes nothing is the end of it are
assumptions about the output library that carries this out. -/
def writeAll (w : World σ) (bytes : List UInt8) : Except IoError Unit × World σ :=
  if bytes.isEmpty then (.ok (), w)
  else
    match h : w.write bytes with
    | (.ok 0, w') => (.error (.simple .writeZero), w')
    | (.ok (n + 1), w') => writeAll w' (bytes.drop (n + 1))
    | (.error e, w') => if e.isInterrupted then writeAll w' bytes else (.error e, w')
termination_by bytes.length + w.sink.interruptions
decreasing_by
  · have hle := Sink.interruptions_write_le w.sink bytes
    have hs : w'.sink = (w.sink.write bytes).2 := by rw [← sink_write, h]
    have hn : 0 < bytes.length := by
      rw [List.length_pos_iff]; intro hb; subst hb; simp_all
    rw [hs, List.length_drop]
    omega
  · rename_i he
    have hs : w'.sink = (w.sink.write bytes).2 := by rw [← sink_write, h]
    have hf : (w.sink.write bytes).1 = .error e := by rw [← fst_write, h]
    have := Sink.interruptions_write_lt hf he
    rw [hs]
    omega

@[simp] theorem state_writeAll (w : World σ) (bytes : List UInt8) :
    (w.writeAll bytes).2.state = w.state := by
  fun_induction writeAll w bytes with
  | case1 => rfl
  | case2 w bytes _ w' h => rw [← state_write w bytes, h]
  | case3 w bytes _ n w' h ih => rw [ih, ← state_write w bytes, h]
  | case4 w bytes _ e w' h _ ih => rw [ih, ← state_write w bytes, h]
  | case5 w bytes _ e w' h _ => rw [← state_write w bytes, h]

end World

end LockedCat
