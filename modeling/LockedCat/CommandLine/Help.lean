import LockedCat.CommandLine.Flag
import LockedCat.Text.Terminal
import LockedCat.Version

/-!
# Help

The help of the command, in a short form with a line for each flag and in a long form, and its
version likewise.
-/

namespace LockedCat.CommandLine

/-- The name of the command. -/
def commandName : String := "gfcat"

open Text

/-- How the command is used, with these words after its name. -/
def usageWith (program : String) (words : List String) : String :=
  emphasised "Usage:" ++ " " ++ " ".intercalate (emphasised program :: words)

/-- How the command is used. The flags that were used are named; without any the usage speaks of
options in general. -/
def usage (program : String) (used : List Slot) : String :=
  let named := used.filterMap fun
    | .flag f => some f.display
    | .operand => none
  let options := if used.isEmpty then ["[OPTIONS]"] else named
  usageWith program (options ++ [operandDisplay])

/-- How a flag is used besides other words: all that says what is to be done is named as one
group, and a flag that does not is named before it. -/
def usageBeside (program : String) (f : Flag) : String :=
  let members := (Flag.all.filter (!·.isQuery)).map Flag.display ++ [operandName]
  let group := "<" ++ "|".intercalate members ++ ">"
  usageWith program (if f.isQuery then [f.display, group] else [group])

namespace Help

def about : String := "Read a file on a remote Gluster volume and write it to standard output"

def aboutAtLength : String :=
  "`gfcat` reads a file on a remote Gluster volume and writes it to standard output.\n\n"
    ++ "The file is locked exclusively for the duration of the read, so the read never observes "
    ++ "a concurrent writer. If another client holds a lock on the file, gfcat fails immediately "
    ++ "instead of waiting.\n\n"
    ++ "EXAMPLES:\n"
    ++ "    # Write the contents of /path/to/file on the Gluster volume groot on host localhost\n"
    ++ "    gfcat glfs://localhost/groot/path/to/file\n\n"
    ++ "    # In the context of a shell with a connection established, cat the file on the root "
    ++ "of\n    # the volume the shell is connected to\n"
    ++ "    gfcli (localhost/groot)> cat /file"

def operandSummary : String :=
  "glfs://HOST[:PORT]/VOLUME/PATH, or /PATH when a session is already established"

/-- What a flag does. -/
def summary (atLength : Bool) : Flag → String
  | .debug =>
      "Log additional debug information, including the volume session's own diagnostics"
  | .xlatorOption =>
      "Translator option for the connection, of the form xlator.key=value (can be specified "
        ++ "multiple times)"
  | .port => "Port to connect to (default: 24007), only used when the URL has no port"
  | .help =>
      if atLength then "Print help (see a summary with '-h')"
      else "Print help (see more with '--help')"
  | .version => "Print version"

/-- A flag in both its forms. -/
def forms (f : Flag) : String := "-" ++ String.singleton f.short ++ ", " ++ f.display

/-- The width of the column that holds the flags. -/
def width : Nat := (Flag.all.map fun f => (forms f).length).foldl max 0

def pad (n : Nat) (s : String) : String := s ++ String.ofList (List.replicate (n - s.length) ' ')

def shortText (program : String) : String :=
  about ++ "\n\n" ++ usage program [] ++ "\n\n"
    ++ emphasised "Arguments:" ++ "\n  " ++ operandDisplay ++ "  " ++ operandSummary ++ "\n\n"
    ++ emphasised "Options:" ++ "\n"
    ++ String.join (Flag.all.map fun f =>
        "  " ++ pad width (forms f) ++ "  " ++ summary false f ++ "\n")

def longText (program : String) : String :=
  aboutAtLength ++ "\n\n" ++ usage program [] ++ "\n\n"
    ++ emphasised "Arguments:" ++ "\n  " ++ operandDisplay ++ "\n          " ++ operandSummary
    ++ "\n\n"
    ++ emphasised "Options:" ++ "\n"
    ++ "\n".intercalate (Flag.all.map fun f =>
        "  " ++ forms f ++ "\n          " ++ summary true f ++ "\n")

def text (atLength : Bool) (program : String) : String :=
  if atLength then longText program else shortText program

def versionText (atLength : Bool) : String :=
  commandName ++ " " ++ (if atLength then Version.current.long else Version.current.display)
    ++ "\n"

end Help

end LockedCat.CommandLine
