import LockedCat.Failure
import LockedCat.Text.Fields

/-!
# Paths

The names that the operating system knows directories and files by.
-/

namespace LockedCat.Path

/-- What a path and the character that ends it may take in bytes. -/
def limit : Nat := 4096

/-- A name in a directory. A name that is absolute does not depend on the directory. -/
def join (directory name : String) : String :=
  match name.toList.head?, directory.toList.getLast? with
  | some '/', _ => name
  | _, none => name
  | _, some '/' => directory ++ name
  | _, some _ => directory ++ "/" ++ name

/-- Why the operating system cannot be asked for a path. -/
def rejection? (path : String) : Option IoError :=
  if path.toList.contains '\x00' then some .nulInName
  else if limit ≤ path.utf8ByteSize then some (.errno Errno.nameTooLong)
  else none

/-- What follows the directory in a path that begins with it. -/
def below? (directory path : String) : Option (List Char) :=
  Text.dropLead? (join directory "").toList path.toList

end LockedCat.Path
