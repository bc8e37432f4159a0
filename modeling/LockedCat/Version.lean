/-!
# Versions

How a build of the command identifies itself.
-/

namespace LockedCat

structure Version where
  number : String
  /-- Where the build stands in its history. -/
  description : Option String := none
  commit : Option String := none
deriving DecidableEq, Repr

namespace Version

def current : Version := { number := "0.1.0" }

def license : String :=
  "License GPLv3+: GNU GPL version 3 or later <https://gnu.org/licenses/gpl.html>.\n"
    ++ "This is free software: you are free to change and redistribute it.\n"
    ++ "There is NO WARRANTY, to the extent permitted by law."

def authors : String := "Written by Craig Cabrey."

def display (v : Version) : String :=
  match v.description with
  | some description => v.number ++ " (" ++ description ++ ")"
  | none => v.number

/-- The version, the commit if it is known, the license and the authors. -/
def long (v : Version) : String :=
  let commit := match v.commit with
    | some commit => "\ncommit " ++ commit
    | none => ""
  v.display ++ commit ++ "\n" ++ license ++ "\n" ++ authors

end Version

end LockedCat
