import LockedCat.Error

/-!
# Directives

A directive sets one option of one translator of a volume: `XLATOR.KEY=VALUE`. The translator
ends at the first point, and both end at the first equals sign.
-/

namespace LockedCat

structure Directive where
  xlator : String
  setting : String
  value : String
deriving DecidableEq, Repr

namespace Directive

/-- What the directive sets. -/
def key (d : Directive) : String := d.xlator ++ "." ++ d.setting

def display (d : Directive) : String := d.key ++ "=" ++ d.value

/-- What is wrong with a text that is no directive. -/
inductive Complaint where
  | missing (sign : Char)
  | empty
deriving DecidableEq, Repr

def Complaint.message : Complaint → String
  | missing sign => "expected XLATOR.KEY=VALUE, missing '" ++ String.singleton sign ++ "'"
  | empty => "expected XLATOR.KEY=VALUE, empty translator or key"

/-- What stands before and after the first `sign`. -/
def splitAt? (sign : Char) (cs : List Char) : Option (List Char × List Char) :=
  match cs.dropWhile (· ≠ sign) with
  | [] => none
  | _ :: after => some (cs.takeWhile (· ≠ sign), after)

def read (raw : List Char) : Except Complaint Directive :=
  match splitAt? '=' raw with
  | none => .error (.missing '=')
  | some (key, value) =>
      match splitAt? '.' key with
      | none => .error (.missing '.')
      | some (xlator, setting) =>
          if xlator.isEmpty || setting.isEmpty then .error .empty
          else .ok ⟨String.ofList xlator, String.ofList setting, String.ofList value⟩

def parse (raw : String) : Except Error Directive :=
  (read raw.toList).mapError fun c => ⟨.parse, raw, { root := c.message }⟩

/-- Reads directives in order up to the first that is none. -/
def parseAll : List String → Except Error (List Directive)
  | [] => .ok []
  | raw :: rest =>
      match parse raw with
      | .error e => .error e
      | .ok d => (parseAll rest).map (d :: ·)

end Directive

end LockedCat
