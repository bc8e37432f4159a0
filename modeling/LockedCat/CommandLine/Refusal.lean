import LockedCat.CommandLine.Help
import LockedCat.Error
import LockedCat.Port

/-!
# Refused command lines

The first thing that is wrong with a command line, and what the user is told about it.
-/

namespace LockedCat.CommandLine

open Text

inductive Refusal where
  /-- A flag stands without the value that it takes. -/
  | missingValue (flag : Flag)
  /-- A flag is given again that can be given once only. -/
  | repeated (flag : Flag)
  /-- A value that has to be text is none. -/
  | notText
  | badPort (text : String)
  /-- A flag that takes no value has one attached. -/
  | attachedValue (flag : Flag) (value : String) (given : List Slot)
  | unknownLong (name : String) (similar : Option Flag) (used : List Slot)
  | unknownShort (letters : String)
  /-- There is an operand already. -/
  | surplus (word : String)
  | missingOperand (given : List Slot)
deriving DecidableEq, Repr

namespace Refusal

/-- A command line without an operand is malformed; all else is a wrong use of flags. -/
def kind : Refusal → ErrorKind
  | missingOperand _ => .parse
  | _ => .usage

/-- A proposal for what to do instead. -/
def tip (proposal : String) : String := "\n\n  " ++ emphasised "tip:" ++ " " ++ proposal

/-- How a word that looks like a flag is passed as an operand. -/
def passAsValue (word : String) : String :=
  tip ("to pass '" ++ emphasised word ++ "' as a value, use '" ++ emphasised ("-- " ++ word) ++ "'")

/-- A word that stands where it cannot. -/
def unexpected (word : String) : String := "unexpected argument '" ++ emphasised word ++ "' found"

/-- What is wrong, and what could be meant instead. -/
def complaint : Refusal → String
  | missingValue f =>
      "a value is required for '" ++ emphasised f.display ++ "' but none was supplied"
  | repeated f => "the argument '" ++ emphasised f.display ++ "' cannot be used multiple times"
  | notText => "invalid UTF-8 was detected in one or more arguments"
  | badPort text =>
      "invalid value '" ++ emphasised text ++ "' for '" ++ emphasised Flag.port.display ++ "': "
        ++ Port.complaint text
  | attachedValue f value _ =>
      "unexpected value '" ++ emphasised value ++ "' for '" ++ emphasised f.display
        ++ "' found; no more were expected"
  | unknownLong name similar _ =>
      unexpected ("--" ++ name) ++
        match similar with
        | some f => tip ("a similar argument exists: '" ++ emphasised ("--" ++ f.long) ++ "'")
        | none => passAsValue ("--" ++ name)
  | unknownShort letters => unexpected ("-" ++ letters) ++ passAsValue ("-" ++ letters)
  | surplus word => unexpected word
  | missingOperand _ =>
      "the following required arguments were not provided:\n  " ++ emphasised operandDisplay

/-- The usage that is shown with a complaint, if one is. -/
def usage? (program : String) : Refusal → Option String
  | missingValue _ | badPort _ => none
  | attachedValue f _ given =>
      some (if given.isEmpty then usage program [.flag f] else usageBeside program f)
  | unknownLong _ _ used => some (usage program used)
  | missingOperand given => some (usage program (given ++ [.operand]))
  | _ => some (usage program [])

/-- All that the user is told, written for a terminal. -/
def message (program : String) (r : Refusal) : String :=
  let usage := match r.usage? program with
    | some usage => "\n\n" ++ usage
    | none => ""
  emphasised "error:" ++ " " ++ r.complaint ++ usage ++ "\n\nFor more information, try '"
    ++ emphasised "--help" ++ "'.\n"

end Refusal

end LockedCat.CommandLine
