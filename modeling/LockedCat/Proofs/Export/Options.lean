import LockedCat.Export.Volume
import Mathlib.Data.List.Induction

/-!
# The options of a session

Main statements: the options in effect have each key once, in the place of the first directive for
it, and the last directive for it says its value.
-/

namespace LockedCat.Export.Volume

/-- The options in effect after directives. -/
def settled (ds : List Directive) : List (String × String) :=
  ds.foldl (fun options d => put options d.key d.value) []

/-- The value that the last directive for a key gives it. -/
def lastValue? (ds : List Directive) (key : String) : Option String :=
  (ds.reverse.find? (·.key = key)).map Directive.value

variable {options : List (String × String)} {ds : List Directive}

theorem settled_concat (ds : List Directive) (d : Directive) :
    settled (ds ++ [d]) = put (settled ds) d.key d.value := by
  simp [settled]

theorem lastValue?_concat (ds : List Directive) (d : Directive) (key : String) :
    lastValue? (ds ++ [d]) key = if d.key = key then some d.value else lastValue? ds key := by
  by_cases h : d.key = key <;> simp [lastValue?, h]

/-! ## One directive -/

theorem keys_put (options : List (String × String)) (key value : String) :
    (put options key value).map Prod.fst =
      if key ∈ options.map Prod.fst then options.map Prod.fst
      else options.map Prod.fst ++ [key] := by
  induction options with
  | nil => rfl
  | cons x rest ih =>
      obtain ⟨k, old⟩ := x
      by_cases hk : k = key
      · simp [put, hk]
      · have hkey : key ≠ k := Ne.symm hk
        simp only [put, if_neg hk, List.map_cons, ih, List.mem_cons, hkey, false_or]
        split <;> rfl

theorem find?_put (options : List (String × String)) (key value k : String) :
    (put options key value).find? (·.1 = k) =
      if key = k then some (key, value) else options.find? (·.1 = k) := by
  induction options with
  | nil => by_cases hk : key = k <;> simp [put, hk]
  | cons x rest ih =>
      obtain ⟨k', old⟩ := x
      by_cases hput : k' = key
      · by_cases hk : key = k <;> simp [put, hput, hk]
      · by_cases hk' : k' = k
        · have hne : key ≠ k := fun he => hput (hk'.trans he.symm)
          rw [put, if_neg hput, if_neg hne]
          simp [hk']
        · simp [put, hput, hk', ih]

/-! ## Many directives -/

theorem eraseDups_concat (keys : List String) (key : String) :
    (keys ++ [key]).eraseDups =
      if key ∈ keys then keys.eraseDups else keys.eraseDups ++ [key] := by
  rw [List.eraseDups_append]
  by_cases h : key ∈ keys <;> simp [List.removeAll, List.eraseDups_cons, h]

/-- Each key is there once, in the order in which the keys were first set. -/
theorem keys_settled (ds : List Directive) :
    (settled ds).map Prod.fst = (ds.map Directive.key).eraseDups := by
  induction ds using List.reverseRecOn with
  | nil => rfl
  | append_singleton ds d ih =>
      simp only [settled_concat, keys_put, List.map_append, List.map_singleton, eraseDups_concat,
        ih, List.mem_eraseDups]

theorem length_settled (ds : List Directive) :
    (settled ds).length = (ds.map Directive.key).eraseDups.length := by
  rw [← keys_settled, List.length_map]

/-- The value of an option is the one that it was given last. -/
theorem find?_settled (ds : List Directive) (key : String) :
    ((settled ds).find? (·.1 = key)).map Prod.snd = lastValue? ds key := by
  induction ds using List.reverseRecOn with
  | nil => rfl
  | append_singleton ds d ih =>
      rw [settled_concat, find?_put, lastValue?_concat, ← ih]
      by_cases h : d.key = key <;> simp [h]

end LockedCat.Export.Volume
