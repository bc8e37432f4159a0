import LockedCat.Program
import LockedCat.Proofs.Commands

/-!
# Queries

A command line may ask for help or for the version. Main statement: the first such word among
groups that can stand together is answered at once, whatever is asked for in the groups before it
and whatever stands after it, and nothing else is done.
-/

namespace LockedCat

namespace CommandLine

/-- A word that asks for something to be shown. -/
inductive Query where
  | help (atLength : Bool)
  | version (atLength : Bool)
deriving DecidableEq, Repr

namespace Query

def flag : Query → Flag
  | help _ => .help
  | version _ => .version

def isLong : Query → Bool
  | help atLength | version atLength => atLength

def word : Query → String
  | help false => "-h"
  | help true => "--help"
  | version false => "-V"
  | version true => "--version"

/-- How the reading of a command line ends with the query. -/
def ended : Query → Ended
  | help atLength => .help atLength
  | version atLength => .version atLength

/-- What is shown to whoever asks a program of this name. -/
def text (program : String) : Query → String
  | help atLength => Text.plain (Help.text atLength program)
  | version atLength => Text.plain (Help.versionText atLength)

end Query

/-! ## Reading a query -/

namespace Scan

variable {s t : Scan} {gs : List Group}

theorem step_query (ho : s.operandsOnly = false) (q : Query) :
    s.step (.ofString q.word) = s.take q.flag q.isLong none := by
  have hvalue : q.flag.takesValue = false := by cases q <;> rfl
  obtain ⟨hshort, hlong⟩ := step_flag_alone ho hvalue
  cases q with
  | help atLength | version atLength =>
      cases atLength with
      | false => exact hshort
      | true => exact hlong

theorem take_query (hs : s.settle = .ok t) (q : Query) :
    s.take q.flag q.isLong none = .error q.ended := by
  cases q <;> simp only [take, hs, Query.flag, Query.isLong, Query.ended]

/-- A query ends the reading, since the flag or the operand before it can be settled. -/
theorem Reads.query (h : s.Reads gs) (q : Query) : s.step (.ofString q.word) = .error q.ended := by
  obtain ⟨t, hs, -⟩ := h.settles
  rw [step_query h.operandsOnly q, take_query hs q]

end Scan

/-- What follows a query is not looked at. -/
theorem read_query {gs : List Group} (hc : Compatible gs) (q : Query)
    (rest : List Text.Glyphs) :
    read ((gs.flatMap Group.words).map .ofString ++ .ofString q.word :: rest) =
      .error q.ended := by
  obtain ⟨s, hrun, hs⟩ := Scan.run_groups hc
  have hstop : s.run (.ofString q.word :: rest) = .error q.ended := by
    rw [Scan.run, hs.query q]
  rw [read, Scan.run_append, hrun, Except.bind, hstop]

end CommandLine

/-! ## Answering a query -/

namespace Command

open CommandLine

variable {σ V F : Type}

/-- A command line that asks for something after these groups, and whatever follows. -/
def asking (program : Text.Glyphs) (gs : List Group) (q : Query) (rest : List Text.Glyphs) :
    List Text.Glyphs :=
  program :: ((gs.flatMap Group.words).map .ofString ++ .ofString q.word :: rest)

theorem parse_asking {gs : List Group} (hc : Compatible gs) (program : Text.Glyphs) (q : Query)
    (rest : List Text.Glyphs) (connected : Bool) :
    parse (asking program gs q rest) connected =
      .error (.usageHandled, { stdout := q.text (programName [program]) }) := by
  have hread : CommandLine.read ((asking program gs q rest).drop 1) = .error q.ended :=
    read_query hc q rest
  have hname : programName (asking program gs q rest) = programName [program] := rfl
  simp only [parse, hread, hname]
  cases q <;> rfl

/-- Help and the version are shown to whoever asks, in and out of a session, and that is all that
happens: the world is left as it was, its journal included. -/
theorem invoke_asking {gs : List Group} (hc : Compatible gs) (program : Text.Glyphs) (q : Query)
    (rest : List Text.Glyphs) :
    let words := asking program gs q rest
    let shown : Shown := { stdout := q.text (programName [program]) }
    (∀ connected, parse words connected = .error (.usageHandled, shown)) ∧
    (∀ (p : Provider σ V F) (connected : Bool) (ctx : Context V) (w : World σ),
      run p words connected ctx w = (.usageHandled, shown, w) ∧
      invoke p words ctx w = (.usageHandled, shown, w)) ∧
    Outcome.usageHandled.exitCode = 0 ∧
    ∀ level s, Program.run words level s = ⟨0, shown.stdout.toUTF8.toList, ""⟩ := by
  intro words shown
  have hparse (connected : Bool) : parse words connected = .error (.usageHandled, shown) :=
    parse_asking hc program q rest connected
  have hrun (p : Provider σ V F) (connected : Bool) (ctx : Context V) (w : World σ) :
      run p words connected ctx w = (.usageHandled, shown, w) := by
    simp only [run, hparse]
  refine ⟨hparse, fun p connected ctx w => ⟨hrun p connected ctx w, hrun p _ ctx w⟩, rfl, ?_⟩
  intro level s
  simp only [Program.run, hparse]
  rfl

/-- A directive and an operand that are none stand before the query, and a flag that is given again
and bytes that are no text after it. -/
theorem invoke_asking_amid_faults :
    let gs : List Group := [.option .shortEquals "-x" trivial, .debug false,
      .operand "no locator" (by decide)]
    let rest : List Text.Glyphs := [.ofString "-d", .ofString "--nope", .ofBytes [0xff],
      .ofString "--help"]
    let words := asking (.ofString "gfcat") gs (.version false) rest
    Compatible gs ∧
      words = (["gfcat", "-o=-x", "-d", "no locator", "-V"].map Text.Glyphs.ofString) ++ rest ∧
      (∀ connected, parse words connected =
        .error (.usageHandled, { stdout := "gfcat 0.1.0\n" })) ∧
      ∀ (ctx : Context Nat) (w : World Export.State),
        invoke Export.provider words ctx w = (.usageHandled, { stdout := "gfcat 0.1.0\n" }, w) := by
  intro gs rest words
  have hc : Compatible gs := by
    intro g hg hs
    simp only [gs, List.mem_cons, List.not_mem_nil, or_false] at hg
    rcases hg with rfl | rfl | rfl
    · cases hs
    · decide
    · decide
  have htext : (Query.version false).text (programName [.ofString "gfcat"]) = "gfcat 0.1.0\n" := by
    decide +kernel
  obtain ⟨hparse, hrun, -⟩ := invoke_asking (σ := Export.State) (V := Nat) (F := Nat) hc
    (.ofString "gfcat") (.version false) rest
  rw [htext] at hparse hrun
  exact ⟨hc, rfl, hparse, fun ctx w => (hrun Export.provider true ctx w).2⟩

end Command

end LockedCat
