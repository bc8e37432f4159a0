import LockedCat.Address
import LockedCat.Failure

/-!
# Hosts

What a machine knows of the network: the addresses that it finds for a host, and those that it has
itself. Both are the machine's own answers, taken as they are, and the same throughout.

A machine that asks nobody else still knows what an address names and the one name that every
machine has for itself.
-/

namespace LockedCat

namespace Host

/-- The name of the machine itself. -/
def isLocalName (s : String) : Bool := s.toList.map Char.toLower = "localhost".toList

/-- The addresses of a host for a machine that asks nobody else. -/
def resolve (host : String) : Except Chain (List Address) :=
  if host.toList.contains '\x00' then .error IoError.nulInName.chain
  else
    match Address.parse? host with
    | some a => .ok [a]
    | none =>
        if isLocalName host then .ok [.v6 [0, 0, 0, 0, 0, 0, 0, 1], .v4 0x7f000001]
        else .error { root := "failed to lookup address information: Name or service not known" }

end Host

/-- What a machine answers when it is asked about the network. -/
structure Network where
  /-- The addresses of a host. -/
  resolve : String → Except Chain (List Address) := Host.resolve
  /-- The addresses of the machine's interfaces. -/
  interfaces : Except IoError (List Address) := .ok []

end LockedCat
