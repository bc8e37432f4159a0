import LockedCat.Locator

/-!
# Paths inside a volume

The path of a file on the volume that a session is connected to.
-/

namespace LockedCat

structure VolumePath where
  text : String
deriving DecidableEq, Repr

namespace VolumePath

def complaint : String := "expected an absolute path inside the connected volume"

def parse (raw : String) : Except Error VolumePath :=
  if namesFile raw.toList then .ok ⟨raw⟩
  else .error ⟨.parse, raw, { root := complaint }⟩

end VolumePath

end LockedCat
