import LockedCat.Failure

/-!
# Errors

An error carries what the command could not handle, as its user wrote it, and the chain of
causes. Its kind decides how the command ends.
-/

namespace LockedCat

/-- The steps of a locked copy. -/
inductive Stage where
  | opening
  | locking
  | transfer
  | closing
deriving DecidableEq, Repr

def Stage.name : Stage → String
  | opening => "open"
  | locking => "lock"
  | transfer => "transfer"
  | closing => "close"

/-- What a command failed at. -/
inductive ErrorKind where
  /-- The command line itself, before anything was done. -/
  | usage
  | parse
  | connect
  | config
  | copy (stage : Stage)
deriving DecidableEq, Repr

/-- The stage of a failed copy. -/
def ErrorKind.stage? : ErrorKind → Option Stage
  | copy stage => some stage
  | _ => none

structure Error where
  kind : ErrorKind
  subject : String
  cause : Chain
deriving DecidableEq, Repr

def Error.message (e : Error) : String := e.subject ++ ": " ++ e.cause.message

end LockedCat
