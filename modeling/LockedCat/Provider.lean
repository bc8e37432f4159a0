import LockedCat.Directive
import LockedCat.Event
import LockedCat.Locator

/-!
# Storage runtimes

The operations through which the command reaches a volume, whatever provides it. `σ` is the state
of the provider, `V` names a session with a volume, and `F` an open file. An operation may have
something to say of itself.

A provider answers a read with no more bytes than were asked for, and every file comes to its
end: `pending` bounds how often a file can still be read before it does.
-/

namespace LockedCat

/-- The modes of a lock on a whole file. -/
inductive LockKind where
  | read
  | write
deriving DecidableEq, Repr

/-- The answer of a provider and the state it is left in. -/
structure Reply (σ ε α : Type) where
  state : σ
  result : Except ε α
  notes : List Note := []

/-- After such an answer to a read, the file may have more to give. -/
def Continues : Except IoError (List UInt8) → Prop
  | .ok bytes => bytes ≠ []
  | .error e => e.isInterrupted

structure Provider (σ V F : Type) where
  connect : Locator → σ → Reply σ Chain V
  setOption : V → Directive → σ → Reply σ Chain Unit
  /-- Sends the provider's own diagnostics to the file with this name. -/
  setLogging : V → String → Level → σ → Reply σ Chain Unit
  openFile : V → String → σ → Reply σ IoError F
  /-- Takes a lock without waiting for it. -/
  lock : F → LockKind → σ → Reply σ IoError Unit
  read : F → Nat → σ → Reply σ IoError (List UInt8)
  /-- Closes a file, which frees the lock that is held through it. -/
  close : F → σ → Reply σ IoError Unit
  /-- Ends a session. -/
  finish : V → σ → Reply σ Chain Unit
  pending : F → σ → Nat
  length_read : ∀ f size s bytes, (read f size s).result = .ok bytes → bytes.length ≤ size
  pending_read : ∀ f size s, 0 < size → Continues (read f size s).result →
    pending f (read f size s).state < pending f s

end LockedCat
