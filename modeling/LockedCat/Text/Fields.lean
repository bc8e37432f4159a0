/-!
# Fields

A text taken apart at each separator in it. There is one field more than there are separators,
and joining the fields gives the text back.
-/

namespace LockedCat.Text

/-- What is left of a text after the `lead` that it begins with. -/
def dropLead? (lead : List Char) (cs : List Char) : Option (List Char) :=
  if lead.isPrefixOf cs then some (cs.drop lead.length) else none

/-- The fields between the separators. -/
def fields (separator : Char) : List Char → List (List Char)
  | [] => [[]]
  | c :: cs =>
      if c = separator then [] :: fields separator cs
      else
        match fields separator cs with
        | [] => [[c]]
        | first :: rest => (c :: first) :: rest

/-- The line without a carriage return at its end. -/
def trimReturn (line : List Char) : List Char :=
  if line.getLast? = some '\r' then line.dropLast else line

/-- The lines of a text. The end of a line does not begin another one. -/
def lines (cs : List Char) : List String :=
  let fields := fields '\n' cs
  let last := (fields.getLast?.getD [])
  let ended := (fields.dropLast.map trimReturn).map String.ofList
  if last.isEmpty then ended else ended ++ [String.ofList last]

theorem fields_ne_nil (separator : Char) (cs : List Char) : fields separator cs ≠ [] := by
  cases cs with
  | nil => simp [fields]
  | cons c cs =>
      unfold fields
      split
      · simp
      · split <;> simp

theorem intercalate_fields (separator : Char) (cs : List Char) :
    [separator].intercalate (fields separator cs) = cs := by
  induction cs with
  | nil => rfl
  | cons c cs ih =>
      have hne := fields_ne_nil separator cs
      unfold fields
      split
      · rename_i hc
        subst hc
        cases hf : fields c cs with
        | nil => exact absurd hf hne
        | cons first rest =>
            rw [hf] at ih
            simp only [List.intercalate, List.intersperse, List.flatten] at ih ⊢
            simpa using ih
      · cases hf : fields separator cs with
        | nil => exact absurd hf hne
        | cons first rest =>
            rw [hf] at ih
            cases rest <;>
              simp only [List.intercalate, List.intersperse, List.flatten] at ih ⊢ <;>
              simpa using ih

end LockedCat.Text
