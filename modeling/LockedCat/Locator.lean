import LockedCat.Error
import LockedCat.Port
import LockedCat.Text.Fields

/-!
# Locators

A locator names a file by the server, the volume and the path inside the volume:
`glfs://HOST[:PORT]/VOLUME/PATH`, or the same with the scheme `gluster`. The host is a name or
anything in square brackets.
-/

namespace LockedCat

structure Locator where
  host : String
  volume : String
  path : String
  port : UInt16
deriving DecidableEq, Repr

/-- A path that names more than the root of its volume. -/
def namesFile (path : List Char) : Bool := path.head? = some '/' && path.any (· ≠ '/')

namespace Locator

/-- The text that reads back as the locator. -/
def display (u : Locator) : String :=
  "glfs://" ++ u.host ++ ":" ++ toString u.port.toNat ++ "/" ++ u.volume ++ u.path

/-- The parts of a locator's text. -/
structure Parts where
  host : List Char
  port : Option (List Char)
  volume : List Char
  path : List Char

/-- What follows the scheme. -/
def afterScheme? (cs : List Char) : Option (List Char) :=
  match Text.dropLead? "glfs://".toList cs with
  | some rest => some rest
  | none => Text.dropLead? "gluster://".toList cs

/-- A character of a host name. -/
def isHostChar (c : Char) : Bool := c ≠ ':' && c ≠ '/' && c ≠ '[' && c ≠ ']'

/-- A character between square brackets. -/
def isBracketedChar (c : Char) : Bool := c ≠ ']' && c ≠ '/'

/-- The host and what follows it. -/
def splitHost? : List Char → Option (List Char × List Char)
  | '[' :: rest =>
      match rest.takeWhile isBracketedChar, rest.dropWhile isBracketedChar with
      | c :: inner, ']' :: after => some ('[' :: c :: inner ++ [']'], after)
      | _, _ => none
  | cs =>
      match cs.takeWhile isHostChar with
      | [] => none
      | host => some (host, cs.dropWhile isHostChar)

/-- The port, if there is one, and what follows the slash after it. -/
def splitPort? : List Char → Option (Option (List Char) × List Char)
  | '/' :: rest => some (none, rest)
  | ':' :: rest =>
      match rest.dropWhile (· ≠ '/') with
      | _ :: after => some (some (rest.takeWhile (· ≠ '/')), after)
      | [] => none
  | _ => none

/-- The parts of a text that has the form of a locator. -/
def split? (cs : List Char) : Option Parts := do
  let rest ← afterScheme? cs
  let (host, rest) ← splitHost? rest
  let (port, rest) ← splitPort? rest
  let volume := rest.takeWhile (· ≠ '/')
  let path := rest.dropWhile (· ≠ '/')
  if volume.isEmpty || path.contains '\n' then none
  else some ⟨host, port, volume, path⟩

/-- What is wrong with a text that is no locator. -/
inductive Complaint where
  | form
  | missingPath (volume : String)
  | port (text : String)
deriving DecidableEq, Repr

def Complaint.message : Complaint → String
  | form => "expected glfs://HOST[:PORT]/VOLUME/PATH"
  | missingPath volume => "missing path inside volume '" ++ volume ++ "'"
  | port text => Port.complaint text

/-- Reads a locator; `standard` is the port of one that has none. -/
def read (raw : String) (standard : UInt16) : Except Complaint Locator :=
  match split? raw.toList with
  | none => .error .form
  | some parts =>
      let volume := String.ofList parts.volume
      if !namesFile parts.path then .error (.missingPath volume)
      else
        let locate (port : UInt16) : Locator :=
          ⟨String.ofList parts.host, volume, String.ofList parts.path, port⟩
        match parts.port with
        | none => .ok (locate standard)
        | some digits =>
            match Port.ofChars? digits with
            | some port => .ok (locate port)
            | none => .error (.port (String.ofList digits))

def parse (raw : String) (standard : UInt16) : Except Error Locator :=
  (read raw standard).mapError fun c => ⟨.parse, raw, { root := c.message }⟩

/-- The host without the square brackets around it. -/
def lookupHost (u : Locator) : String :=
  match u.host.toList with
  | '[' :: rest =>
      if rest.getLast? = some ']' then String.ofList rest.dropLast else u.host
  | _ => u.host

end Locator

end LockedCat
