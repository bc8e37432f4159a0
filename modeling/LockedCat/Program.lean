import LockedCat.Export
import LockedCat.Run

/-!
# The program

The command as a program of its own: it copies a file of an exported volume to its output, and it
writes what is reported to the standard error stream. The level up to which events are shown can
also be given from outside, as one level for all of them.
-/

namespace LockedCat.Program

/-- What a run of the program leaves behind. -/
structure Ending where
  exitCode : Nat
  stdout : List UInt8
  stderr : String
deriving Repr

/-- An event on a line of its own, the level right-justified. -/
def eventLine (now : Moment) (e : Event) : String :=
  let name := e.level.name
  now.word ++ " " ++ "".pushn ' ' (5 - name.length) ++ name ++ " " ++ Text.inert e.message ++ "\n"

/-- What an entry of the journal puts on the standard error stream. -/
def shown (now : Moment) (level : Level) : Entry → Option String
  | .event e => if e.level.within level then some (eventLine now e) else none
  | .line text => some text
  | _ => none

/-- Runs the program. The first word is its name; events are shown up to `level`, or to the level
that the command asks for. -/
def run (words : List Text.Glyphs) (level : Option Level) (s : Export.State) : Ending :=
  match Command.parse words false with
  | .error (outcome, shown) => ⟨outcome.exitCode, shown.stdout.toUTF8.toList, shown.stderr⟩
  | .ok c =>
      let (outcome, w) := c.execute Export.provider {} { state := s }
      ⟨outcome.exitCode, w.sink.received, String.join
        (w.journal.toList.filterMap (shown s.now (level.getD (Config.level c.debug))))⟩

end LockedCat.Program
