import LockedCat.Size
import LockedCat.Text.Quoted
import LockedCat.World

/-!
# Locked copies

A file is copied to the sink while a write lock is held on it, so that the copy sees no writer,
and no other reader that does the same. The lock is never given back by itself: closing the file
frees it. A file that was opened is closed in any case, and a close that fails is the result,
whatever came before it; what was written to the sink stays written.
-/

namespace LockedCat

namespace Copy

variable {σ V F : Type}

/-- How many bytes of a file are held at once when nothing else is said. -/
def standardChunk : Nat := 128 * 1024

/-- What is said of a finished copy. -/
def summary (count : Nat) : String := "bytes copied: " ++ Size.display count

set_option linter.unusedVariables false in
/-- Copies what is left of an open file, at most `chunk` bytes at a time. `copied` bytes were
copied before. -/
def transfer (p : Provider σ V F) (f : F) (chunk : { n : Nat // 0 < n }) (copied : Nat)
    (w : World σ) : Except Chain Nat × World σ :=
  match h : w.read p f chunk with
  | (.ok [], w₁) =>
      match w₁.flush with
      | (some e, w₂) => (.error (e.chain.within "write error"), w₂)
      | (none, w₂) => (.ok copied, w₂.debug (summary copied))
  | (.ok (b :: bytes), w₁) =>
      match h₂ : w₁.writeAll (b :: bytes) with
      | (.error e, w₂) => (.error (e.chain.within "write error"), w₂)
      | (.ok (), w₂) => transfer p f chunk (copied + (b :: bytes).length) w₂
  | (.error e, w₁) =>
      if e.isInterrupted then transfer p f chunk copied w₁
      else (.error (e.chain.within ("read error after " ++ toString copied ++ " bytes")), w₁)
termination_by p.pending f w.state
decreasing_by
  · have hs : w₂.state = w₁.state := by rw [← World.state_writeAll w₁ (b :: bytes), h₂]
    have hr : w₁.state = (p.read f chunk w.state).state := by
      rw [← World.state_accept w (.read chunk) (p.read f chunk w.state)]
      exact congrArg (·.2.state) h.symm
    have ha : (p.read f chunk w.state).result = .ok (b :: bytes) := congrArg (·.1) h
    rw [hs, hr]
    exact p.pending_read f chunk w.state chunk.2 (by rw [ha]; simp [Continues])
  · rename_i he
    have hr : w₁.state = (p.read f chunk w.state).state := by
      rw [← World.state_accept w (.read chunk) (p.read f chunk w.state)]
      exact congrArg (·.2.state) h.symm
    have ha : (p.read f chunk w.state).result = .error e := congrArg (·.1) h
    rw [hr]
    exact p.pending_read f chunk w.state chunk.2 (by rw [ha]; exact he)

theorem transfer_eq (p : Provider σ V F) (f : F) (chunk : { n : Nat // 0 < n }) (copied : Nat)
    (w : World σ) :
    transfer p f chunk copied w =
      match w.read p f chunk with
      | (.ok [], w₁) =>
          match w₁.flush with
          | (some e, w₂) => (.error (e.chain.within "write error"), w₂)
          | (none, w₂) => (.ok copied, w₂.debug (summary copied))
      | (.ok (b :: bytes), w₁) =>
          match w₁.writeAll (b :: bytes) with
          | (.error e, w₂) => (.error (e.chain.within "write error"), w₂)
          | (.ok (), w₂) => transfer p f chunk (copied + (b :: bytes).length) w₂
      | (.error e, w₁) =>
          if e.isInterrupted then transfer p f chunk copied w₁
          else
            (.error (e.chain.within ("read error after " ++ toString copied ++ " bytes")), w₁) := by
  rw [transfer]
  split
  · rename_i h
    rw [h]
  · rename_i h
    simp only [h]
    split
    · rename_i h₂
      simp only [h₂]
    · rename_i h₂
      simp only [h₂]
  · rename_i h
    simp only [h]

/-- The size that reads are made with: a chunk of no bytes counts as one byte. -/
def readSize (chunk : Nat) : { n : Nat // 0 < n } := ⟨max chunk 1, by omega⟩

/-- Locks an open file and copies it. -/
def lockAndTransfer (p : Provider σ V F) (f : F) (path target : String) (chunk : Nat)
    (w : World σ) : Except Error Nat × World σ :=
  match w.lock p f .write with
  | (.error e, w) => (.error ⟨.copy .locking, target, e.chain.within ("cannot lock " ++ path)⟩, w)
  | (.ok (), w) =>
      let w := w.debug "lock acquired, copying data"
      match transfer p f (readSize chunk) 0 w with
      | (.error c, w) => (.error ⟨.copy .transfer, target, c⟩, w)
      | (.ok count, w) => (.ok count, w)

/-- What is said of a close that failed after the rest had ended like this. -/
def closeContext (path : String) : Except Error Nat → String
  | .ok _ => "cannot close file " ++ path
  | .error prior =>
      "cannot close file " ++ path ++ " after " ++ (prior.kind.stage?.getD .opening).name
        ++ " failure (" ++ prior.message ++ ")"

/-- Copies a file of a volume to the sink under a write lock. `target` is what the file is called
in errors. The result is the number of bytes copied. -/
def copy (p : Provider σ V F) (v : V) (path target : String) (chunk : Nat) (w : World σ) :
    Except Error Nat × World σ :=
  let w := w.debug ("opening " ++ Text.quoted path ++ " for reading")
  match w.openFile p v path with
  | (.error e, w) =>
      (.error ⟨.copy .opening, target,
        e.chain.within ("cannot open " ++ path ++ " for reading")⟩, w)
  | (.ok f, w) =>
      let (result, w) := lockAndTransfer p f path target chunk w
      let w := w.debug ("closing " ++ Text.quoted path)
      match w.close p f with
      | (.ok (), w) => (result, w)
      | (.error e, w) =>
          (.error ⟨.copy .closing, target, e.chain.within (closeContext path result)⟩, w)

end Copy

end LockedCat
