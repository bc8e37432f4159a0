/-!
# Events

What the command reports while it runs, for whoever watches it.
-/

namespace LockedCat

/-- The levels of an event, from the one that is always of interest to the finest. -/
inductive Level where
  | error
  | warn
  | info
  | debug
  | trace
deriving DecidableEq, Repr

def Level.name : Level → String
  | error => "ERROR"
  | warn => "WARN"
  | info => "INFO"
  | debug => "DEBUG"
  | trace => "TRACE"

/-- How much detail a level asks for. -/
def Level.detail : Level → Nat
  | error => 1
  | warn => 2
  | info => 3
  | debug => 4
  | trace => 5

/-- Whether a destination that takes events up to the level `most` takes one of this level. -/
def Level.within (level most : Level) : Bool := level.detail ≤ most.detail

structure Event where
  level : Level
  message : String
deriving DecidableEq, Repr

/-- What a storage runtime says of itself: an event, or a line that it writes on its own to the
standard error stream or to a log that is no file of the export. -/
inductive Note where
  | event (event : Event)
  | line (text : String)
  | record (log : Nat) (text : String)
deriving DecidableEq, Repr

end LockedCat
