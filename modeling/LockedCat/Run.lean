import LockedCat.Command
import LockedCat.Config
import LockedCat.Copy
import LockedCat.Session

/-!
# Running a command

A command with a locator makes a session, configures it, copies the file and ends the session. A
command with a path copies the file through the session of its caller, which it neither configures
nor ends.
-/

namespace LockedCat

/-- What a command is run with. -/
structure Context (V : Type) where
  /-- The caller's session. -/
  session : Option V := none
  /-- What the caller says about debugging, if anything. -/
  debug : Option Bool := none
  /-- How much of a file is held at once. A buffer of this size is assumed to be had: that there is
  no memory for it is not among the failures of a copy. -/
  chunk : Nat := Copy.standardChunk

namespace Command

variable {σ V F : Type}

/-- Configures a session and copies the file. -/
def configureAndCopy (p : Provider σ V F) (s : Session V) (c : Command) (url : Locator)
    (debug : Bool) (chunk : Nat) (w : World σ) : Except Error Nat × World σ :=
  match s.configurable? with
  | none => Copy.copy p s.volume url.path c.operand chunk w
  | some v =>
      match Session.applyDirectives p v c.directives w with
      | (.error e, w) => (.error e, w)
      | (.ok (), w) =>
          if debug then
            match Session.setLogging p v Config.debugLog .debug w with
            | (.error e, w) => (.error e, w)
            | (.ok (), w) => Copy.copy p v url.path c.operand chunk w
          else Copy.copy p v url.path c.operand chunk w

/-- Copies a file through a session made for it. -/
def copyAlone (p : Provider σ V F) (c : Command) (url : Locator) (ctx : Context V)
    (w : World σ) : Except Error Nat × World σ :=
  match Session.connect p url w with
  | (.error e, w) => (.error e, w)
  | (.ok s, w) =>
      let (result, w) :=
        configureAndCopy p s c url (c.debug || ctx.debug.getD false) ctx.chunk w
      (result, s.close p w)

/-- Copies a file through the caller's session. -/
def copyWithin (p : Provider σ V F) (c : Command) (path : VolumePath) (v : V) (ctx : Context V)
    (w : World σ) : Except Error Nat × World σ :=
  let w := if c.directives.isEmpty then w
    else w.debug "session is already configured, ignoring translator options"
  let (result, w) := Copy.copy p v path.text c.operand ctx.chunk w
  (result, (Session.borrowed v).close p w)

/-- Copies the file that a command names. -/
def carryOut (p : Provider σ V F) (c : Command) (ctx : Context V) (w : World σ) :
    Except Error Nat × World σ :=
  match ctx.session, c.target with
  | some v, .path path => copyWithin p c path v ctx w
  | none, .locator url => copyAlone p c url ctx w
  | some _, .locator _ =>
      (.error ⟨.parse, c.operand,
        { root := "a session is already established, expected a path inside its volume" }⟩, w)
  | none, .path _ =>
      (.error ⟨.parse, c.operand,
        { root := "no session is established, expected glfs://HOST[:PORT]/VOLUME/PATH" }⟩, w)

/-- Runs a command and reports how it went. -/
def execute (p : Provider σ V F) (c : Command) (ctx : Context V) (w : World σ) :
    Outcome × World σ :=
  match carryOut p c ctx w with
  | (.ok count, w) => (.success, w.debug (c.operand ++ ": " ++ Copy.summary count))
  | (.error e, w) => (.failure e.kind, w.report .error e.message)

/-- Reads a command line and runs the command. -/
def run (p : Provider σ V F) (words : List Text.Glyphs) (connected : Bool) (ctx : Context V)
    (w : World σ) : Outcome × Shown × World σ :=
  match parse words connected with
  | .error (outcome, shown) => (outcome, shown, w)
  | .ok c =>
      let (outcome, w) := execute p c ctx w
      (outcome, {}, w)

/-- Reads a command line as the caller's session asks for and runs the command. -/
def invoke (p : Provider σ V F) (words : List Text.Glyphs) (ctx : Context V) (w : World σ) :
    Outcome × Shown × World σ :=
  run p words ctx.session.isSome ctx w

end Command

end LockedCat
