import LockedCat.CommandLine.Refusal
import LockedCat.Text.Glyph
import LockedCat.Text.Similarity

/-!
# Reading a command line

The words of a command line are read in order. The value of a flag may be attached to it or be the
next word; such a flag, and the operand, is settled only when the next word has been seen to need
it, so that of several faults the first one is found in that order.
-/

namespace LockedCat.CommandLine

open Text

/-- What a command line that can be read says. -/
structure Settings where
  debug : Bool
  port : Option UInt16
  options : List String
  operand : String
deriving DecidableEq, Repr

/-- Why the reading of a command line ended early. -/
inductive Ended where
  | help (atLength : Bool)
  | version (atLength : Bool)
  | refused (refusal : Refusal)
deriving DecidableEq, Repr

/-- What has been read. -/
structure Scan where
  debug : Bool := false
  port : Option UInt16 := none
  options : List String := []
  operand : Option String := none
  /-- The slots that were filled, in the order in which they were first filled. -/
  given : List Slot := []
  /-- A slot that waits to be settled, with its value once that has been read. -/
  waiting : Option (Slot × Option Glyphs) := none
  /-- Whether all further words are operands. -/
  operandsOnly : Bool := false
deriving DecidableEq, Repr

namespace Scan

/-- The slots given, with one more. -/
def mention (given : List Slot) (slot : Slot) : List Slot :=
  if slot ∈ given then given else given ++ [slot]

/-- Fills a slot. That it was given counts before its value is looked at. -/
def fill (s : Scan) (slot : Slot) (value : Option Glyphs) : Except Refusal Scan :=
  match slot, value with
  | .flag f, none =>
      if f.takesValue then .error (.missingValue f)
      else if .flag f ∈ s.given then .error (.repeated f)
      else .ok { s with debug := true, given := mention s.given slot }
  | .flag f, some value =>
      if f.isRepeatable = false ∧ .flag f ∈ s.given then .error (.repeated f)
      else
        match value.text? with
        | none => .error .notText
        | some text =>
            if f.isRepeatable then
              .ok { s with options := s.options ++ [text], given := mention s.given slot }
            else
              match Port.parse? text with
              | none => .error (.badPort text)
              | some port => .ok { s with port := some port, given := mention s.given slot }
  | .operand, none => .error (.missingOperand s.given)
  | .operand, some value =>
      match value.text? with
      | none => .error .notText
      | some text => .ok { s with operand := some text, given := mention s.given slot }

/-- Settles the slot that waits, if one does. -/
def settle (s : Scan) : Except Refusal Scan :=
  match s.waiting with
  | none => .ok s
  | some (slot, value) => { s with waiting := none }.fill slot value

/-- The slots given once the one that waits counts as well, rightly filled or not. -/
def mentioned (s : Scan) : List Slot :=
  match s.waiting with
  | some (slot, some _) =>
      if slot.isSingle ∧ slot ∈ s.given then s.given.erase slot else mention s.given slot
  | _ => s.given

/-- A flag that is complete. -/
def take (s : Scan) (f : Flag) (atLength : Bool) (value : Option Glyphs) : Except Ended Scan :=
  match s.settle with
  | .error r => .error (.refused r)
  | .ok s =>
      match f with
      | .help => .error (.help atLength)
      | .version => .error (.version atLength)
      | _ =>
          match s.fill (.flag f) value with
          | .error r => .error (.refused r)
          | .ok s => .ok s

/-- A flag that takes a value, which may still be to come. -/
def takeValue (s : Scan) (f : Flag) (atLength : Bool) : Option Glyphs → Except Ended Scan
  | some value => s.take f atLength (some value)
  | none =>
      match s.settle with
      | .error r => .error (.refused r)
      | .ok s => .ok { s with waiting := some (.flag f, none) }

/-- What is attached to a short flag: an equals sign before a value is left out. -/
def attached : Glyphs → Option Glyphs
  | [] => none
  | .char '=' :: value => some value
  | value => some value

/-- The short flags of one word. -/
def cluster (s : Scan) : Glyphs → Except Ended Scan
  | [] => .ok s
  | .undecodable bytes :: rest =>
      .error (.refused (.unknownShort (Glyphs.shown (.undecodable bytes :: rest))))
  | .char c :: rest =>
      match Flag.ofShort? c with
      | none => .error (.refused (.unknownShort (String.singleton c)))
      | some f =>
          if f.takesValue then s.takeValue f false (attached rest)
          else
            match s.take f false none with
            | .error e => .error e
            | .ok s => cluster s rest

/-- What stands before the first equals sign, and what stands after it. -/
def splitValue : Glyphs → Glyphs × Option Glyphs
  | [] => ([], none)
  | .char '=' :: rest => ([], some rest)
  | g :: rest => (g :: (splitValue rest).1, (splitValue rest).2)

/-- A word after two dashes that names no flag. -/
def unknown (s : Scan) (name : String) : Ended :=
  let similar := (mostSimilar name (Flag.all.map Flag.long)).bind Flag.ofLong?
  let used := match similar with
    | some f => mention s.mentioned (.flag f)
    | none => s.mentioned
  .refused (.unknownLong name similar used)

/-- A word after two dashes. -/
def long (s : Scan) (word : Glyphs) : Except Ended Scan :=
  let (name, value) := splitValue word
  match name.text?.bind Flag.ofLong? with
  | none => .error (s.unknown name.shown)
  | some f =>
      if f.takesValue then s.takeValue f true value
      else
        match value with
        | some value =>
            .error (.refused (.attachedValue f value.shown s.given))
        | none => s.take f true none

/-- Whether the operand has been read. -/
def hasOperand (s : Scan) : Bool :=
  s.operand.isSome || match s.waiting with
    | some (.operand, _) => true
    | _ => false

/-- A word that is an operand. -/
def word (s : Scan) (w : Glyphs) : Except Ended Scan :=
  if s.hasOperand then .error (.refused (.surplus w.shown))
  else
    match s.settle with
    | .error r => .error (.refused r)
    | .ok s => .ok { s with waiting := some (.operand, some w) }

/-- One word of the command line. -/
def step (s : Scan) (w : Glyphs) : Except Ended Scan :=
  if s.operandsOnly then s.word w
  else
    match w with
    | [.char '-', .char '-'] => .ok { s with operandsOnly := true }
    | .char '-' :: .char '-' :: rest => s.long rest
    | .char '-' :: g :: rest => s.cluster (g :: rest)
    | w =>
        match s.waiting with
        | some (.flag f, none) => .ok { s with waiting := some (.flag f, some w) }
        | _ => s.word w

def run (s : Scan) : List Glyphs → Except Ended Scan
  | [] => .ok s
  | w :: rest =>
      match s.step w with
      | .error e => .error e
      | .ok s => run s rest

/-- What has been read when there are no more words. -/
def finish (s : Scan) : Except Ended Settings :=
  match s.settle with
  | .error r => .error (.refused r)
  | .ok s =>
      match s.operand with
      | none => .error (.refused (.missingOperand s.given))
      | some operand => .ok ⟨s.debug, s.port, s.options, operand⟩

end Scan

/-- Reads the words that follow the name of the program. -/
def read (words : List Glyphs) : Except Ended Settings :=
  match ({} : Scan).run words with
  | .error e => .error e
  | .ok s => s.finish

/-- The components of a file name, those that only repeat a directory left out. -/
def components (gs : Glyphs) : List Glyphs :=
  (gs.splitOnP (· == .char '/')).filter fun c => c != [] && c != [.char '.']

/-- The name of the program, from the word that the command line begins with. -/
def programName (words : List Glyphs) : String :=
  match words.head?.bind fun w => (components w).getLast? with
  | some name =>
      if name = [.char '.', .char '.'] then commandName else name.text?.getD commandName
  | none => commandName

end LockedCat.CommandLine
