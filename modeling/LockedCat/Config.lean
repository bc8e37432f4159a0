import LockedCat.Event

/-!
# Configuration

What is taken from the environment, and what is assumed without it.
-/

namespace LockedCat.Config

/-- The environment variable that names the directory volumes are exported from. -/
def exportVariable : String := "GFCAT_EXPORT_DIR"

def standardExportRoot : String := "/var/lib/gfcat/exports"

/-- The directory volumes are exported from: an empty name counts as none. -/
def exportRoot : Option String → String
  | some "" | none => standardExportRoot
  | some root => root

/-- Where a session's own diagnostics go when the user debugs. -/
def debugLog : String := "/dev/stderr"

/-- The level up to which events are shown. -/
def level (debug : Bool) : Level := if debug then .debug else .error

end LockedCat.Config
