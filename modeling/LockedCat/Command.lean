import LockedCat.CommandLine.Scan
import LockedCat.Directive
import LockedCat.Text.Terminal
import LockedCat.VolumePath

/-!
# Commands

A command says which file is to be copied and how its volume is to be configured. Outside of a
session the file is named by a locator, inside of one by its path alone.
-/

namespace LockedCat

/-- What is to be read. -/
inductive Target where
  /-- A file for which a session is made. -/
  | locator (url : Locator)
  /-- A file on the volume of the caller's session. -/
  | path (path : VolumePath)
deriving DecidableEq, Repr

structure Command where
  target : Target
  directives : List Directive
  debug : Bool
  /-- The operand as the user wrote it. -/
  operand : String
deriving DecidableEq, Repr

/-- How an invocation ends. -/
inductive Outcome where
  | success
  /-- Help or the version was shown, and nothing else was done. -/
  | usageHandled
  | failure (kind : ErrorKind)
deriving DecidableEq, Repr

def Outcome.exitCode : Outcome → Nat
  | success | usageHandled => 0
  | failure _ => 1

/-- What an invocation shows. -/
structure Shown where
  stdout : String := ""
  stderr : String := ""
deriving DecidableEq, Repr

namespace Command

open CommandLine

/-- What the user is told about an error in a command line that could be read. -/
def explain (e : Error) : String :=
  commandName ++ ": " ++ e.message ++ "\nTry '" ++ commandName ++ " --help' for more information.\n"

/-- The file that an operand names. A locator without a port has the one given by a flag. -/
def Target.read (operand : String) (port : Option UInt16) (connected : Bool) :
    Except Error Target :=
  if connected then (VolumePath.parse operand).map .path
  else (Locator.parse operand (port.getD Port.standard)).map .locator

/-- The command that settings stand for. Directives are looked at before the operand. -/
def ofSettings (s : Settings) (connected : Bool) : Except Error Command :=
  match Directive.parseAll s.options with
  | .error e => .error e
  | .ok directives =>
      match Target.read s.operand s.port connected with
      | .error e => .error e
      | .ok target => .ok ⟨target, directives, s.debug, s.operand⟩

/-- Reads a command line, the name of the program first. If it is no command, the result says how
the invocation ends and what it shows. -/
def parse (words : List Text.Glyphs) (connected : Bool) : Except (Outcome × Shown) Command :=
  let program := programName words
  match CommandLine.read (words.drop 1) with
  | .error (.help atLength) =>
      .error (.usageHandled, { stdout := Text.plain (Help.text atLength program) })
  | .error (.version atLength) =>
      .error (.usageHandled, { stdout := Text.plain (Help.versionText atLength) })
  | .error (.refused r) =>
      .error (.failure r.kind, { stderr := Text.plain (r.message program) })
  | .ok settings =>
      match ofSettings settings connected with
      | .error e => .error (.failure e.kind, { stderr := explain e })
      | .ok command => .ok command

end Command

end LockedCat
