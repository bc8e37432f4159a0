import LockedCat.Failure

/-!
# Sinks

Where a copy goes. What the first writes come to may be settled beforehand, write by write. After
that a sink may take only so much at a time, and it may have room for only so much. One that is
full says why; one that says it was interrupted turns out to have room after all.

Main statement: what a sink has received only ever grows at its end.
-/

namespace LockedCat

structure Sink where
  /-- What the next writes come to: the most bytes that each takes, or what it fails with. The
  fields below speak for the writes after these. -/
  answers : List (Except IoError Nat) := []
  /-- The most bytes that one write takes. -/
  most : Option Nat := none
  /-- How many bytes there is still room for. -/
  room : Option Nat := none
  /-- What a write to a full sink fails with; without it the write takes nothing. -/
  refusal : Option IoError := none
  /-- What a flush fails with. -/
  flushFailure : Option IoError := none
  data : Array UInt8 := #[]
  writes : Nat := 0
  flushes : Nat := 0
deriving Repr

namespace Sink

/-- The bytes that the sink has taken. -/
def received (s : Sink) : List UInt8 := s.data.toList

/-- How many of `n` bytes one write takes. -/
def capacity (s : Sink) (n : Nat) : Nat :=
  let n := match s.most with
    | some most => min n most
    | none => n
  match s.room with
  | some room => min n room
  | none => n

theorem capacity_le (s : Sink) (n : Nat) : s.capacity n ≤ n := by
  unfold capacity
  cases s.most <;> cases s.room <;> simp only <;> omega

/-- The sink after it took these bytes. -/
def take (s : Sink) (bytes : List UInt8) : Sink :=
  { s with data := s.data ++ bytes, room := s.room.map (· - bytes.length), writes := s.writes + 1 }

/-- What a write to a full sink does. -/
def refuse (s : Sink) : Except IoError Nat × Sink :=
  match s.refusal with
  | none => (.ok 0, { s with writes := s.writes + 1 })
  | some e =>
      (.error e, { s with
        room := if e.isInterrupted then none else s.room
        writes := s.writes + 1 })

/-- A write for which nothing was settled beforehand. -/
def offer (s : Sink) (bytes : List UInt8) : Except IoError Nat × Sink :=
  if s.capacity bytes.length = 0 ∧ s.room.isSome then s.refuse
  else (.ok (s.capacity bytes.length), s.take (bytes.take (s.capacity bytes.length)))

/-- One write: how many bytes were taken, and the sink afterwards. -/
def write (s : Sink) (bytes : List UInt8) : Except IoError Nat × Sink :=
  match s.answers with
  | [] => s.offer bytes
  | .ok n :: rest => (.ok (min n bytes.length), { s with answers := rest }.take (bytes.take n))
  | .error e :: rest => (.error e, { s with answers := rest, writes := s.writes + 1 })

def flush (s : Sink) : Option IoError × Sink :=
  (s.flushFailure, { s with flushes := s.flushes + 1 })

/-- How often the sink can still interrupt at most. -/
def interruptions (s : Sink) : Nat := s.answers.length + if s.room.isSome then 1 else 0

@[simp] theorem received_take (s : Sink) (bytes : List UInt8) :
    (s.take bytes).received = s.received ++ bytes := by
  simp [received, take]

@[simp] theorem received_refuse (s : Sink) : s.refuse.2.received = s.received := by
  unfold refuse
  cases s.refusal <;> rfl

/-- What a write reports as taken. -/
def taken : Except IoError Nat → Nat
  | .ok n => n
  | .error _ => 0

theorem taken_refuse (s : Sink) : taken s.refuse.1 = 0 := by
  unfold refuse
  cases s.refusal <;> rfl

/-- A write adds to the sink what it says it took. -/
theorem received_write (s : Sink) (bytes : List UInt8) :
    (s.write bytes).2.received = s.received ++ bytes.take (taken (s.write bytes).1) := by
  unfold write
  split
  · unfold offer
    split
    · simp [taken_refuse]
    · simp [taken]
  · rw [received_take, taken, ← List.take_eq_take_min]
    rfl
  · simp [taken, received]

theorem taken_write_le (s : Sink) (bytes : List UInt8) :
    taken (s.write bytes).1 ≤ bytes.length := by
  unfold write
  split
  · unfold offer
    split
    · simp [taken_refuse]
    · exact s.capacity_le _
  · exact Nat.min_le_right _ _
  · exact Nat.zero_le _

theorem interruptions_offer_le (s : Sink) (bytes : List UInt8) :
    (s.offer bytes).2.interruptions ≤ s.interruptions := by
  unfold offer
  split
  · unfold refuse
    cases s.refusal with
    | none => exact Nat.le_refl _
    | some e => by_cases he : e.isInterrupted <;> simp [he, interruptions]
  · cases hr : s.room <;> simp [take, interruptions, hr]

theorem interruptions_write_le (s : Sink) (bytes : List UInt8) :
    (s.write bytes).2.interruptions ≤ s.interruptions := by
  unfold write
  split
  · exact s.interruptions_offer_le bytes
  · rename_i ha
    cases hr : s.room <;> simp [take, interruptions, ha, hr]
  · rename_i ha
    simp [interruptions, ha]

/-- An interruption leaves fewer of them. -/
theorem interruptions_write_lt {s : Sink} {bytes : List UInt8} {e : IoError}
    (h : (s.write bytes).1 = .error e) (he : e.isInterrupted) :
    (s.write bytes).2.interruptions < s.interruptions := by
  unfold write at h ⊢
  split at h
  · unfold offer at h ⊢
    split at h
    · rename_i hz
      rw [if_pos hz]
      unfold refuse at h ⊢
      cases hr : s.refusal with
      | none => simp [hr] at h
      | some e' =>
          have : e' = e := by simpa [hr] using h
          subst this
          simp [he, interruptions, hz.2]
    · cases h
  · cases h
  · rename_i ha
    simp [interruptions, ha]

end Sink

end LockedCat
