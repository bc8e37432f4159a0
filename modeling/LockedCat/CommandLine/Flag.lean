/-!
# Flags

The flags of the command and its one operand.
-/

namespace LockedCat.CommandLine

inductive Flag where
  | debug
  | xlatorOption
  | port
  | help
  | version
deriving DecidableEq, Repr

namespace Flag

/-- The flags in the order in which they are listed. -/
def all : List Flag := [debug, xlatorOption, port, help, version]

theorem mem_all (f : Flag) : f ∈ all := by cases f <;> decide

def short : Flag → Char
  | debug => 'd'
  | xlatorOption => 'o'
  | port => 'p'
  | help => 'h'
  | version => 'V'

def long : Flag → String
  | debug => "debug"
  | xlatorOption => "xlator-option"
  | port => "port"
  | help => "help"
  | version => "version"

/-- What the value of a flag that takes one is called. -/
def valueName? : Flag → Option String
  | xlatorOption => some "OPTION"
  | port => some "PORT"
  | _ => none

def takesValue (f : Flag) : Bool := f.valueName?.isSome

/-- A flag that is answered at once: it ends the reading of the command line. -/
def isQuery (f : Flag) : Bool := f = help || f = version

/-- A flag that may be given more than once. -/
def isRepeatable (f : Flag) : Bool := f = xlatorOption

/-- The flag as it is written in messages. -/
def display (f : Flag) : String :=
  match f.valueName? with
  | some name => "--" ++ f.long ++ " <" ++ name ++ ">"
  | none => "--" ++ f.long

def ofShort? (c : Char) : Option Flag := all.find? (·.short = c)

def ofLong? (name : String) : Option Flag := all.find? (·.long = name)

@[simp] theorem ofShort?_short (f : Flag) : ofShort? f.short = some f := by cases f <;> decide

@[simp] theorem ofLong?_long (f : Flag) : ofLong? f.long = some f := by cases f <;> decide

theorem short_ne_dash (f : Flag) : f.short ≠ '-' := by cases f <;> decide

theorem equals_not_mem_long (f : Flag) : '=' ∉ f.long.toList := by cases f <;> decide

theorem long_ne_empty (f : Flag) : f.long ≠ "" := by cases f <;> decide

end Flag

/-- What a word of the command line can be for. -/
inductive Slot where
  | flag (flag : Flag)
  | operand
deriving DecidableEq, Repr

/-- A slot that can be filled once only. -/
def Slot.isSingle : Slot → Bool
  | flag f => !f.isRepeatable
  | operand => true

/-- What the operand is called. -/
def operandName : String := "URL"

/-- The operand as it is written in messages. -/
def operandDisplay : String := "<" ++ operandName ++ ">"

end LockedCat.CommandLine
