import LockedCat.Text.Quoted

/-!
# Terminals and the text that is written to them

Text for a terminal has control sequences in it, such as those that emphasise a part of it. They
are left out of what is written elsewhere, whoever they came from, and so are control characters
that are no blanks. In what is reported, the characters that a control sequence could begin with
are shown as what they are.
-/

namespace LockedCat.Text

/-- Where in a control sequence the next character stands. -/
inductive Terminal where
  | ground
  | escape
  | escapeIntermediate
  | sequence
  /-- A command to the operating system, which a bell ends. -/
  | command
  | device
  | deviceParameters
  | deviceIntermediate
  /-- A string that is passed over up to its terminator. -/
  | passed
deriving DecidableEq, Repr

/-- Control characters that are shown all the same. -/
def isBlank (c : Char) : Bool := c = '\t' || c = '\n' || c = '\x0c' || c = '\r'

/-- What is shown outside of control sequences. -/
def isShown (c : Char) : Bool := isBlank c || (c.toNat ≥ 0x20 && c ≠ '\x7f')

/-- The byte that ends a string, wherever it stands in a character. -/
def stringTerminator : UInt8 := 0x9c

def endsString (c : Char) : Bool := (String.utf8EncodeChar c).contains stringTerminator

namespace Terminal

/-- Where the character after `c` stands, if `c` is not shown. -/
def next (t : Terminal) (c : Char) : Terminal :=
  let n := c.toNat
  if n = 0x1b then escape
  else if n = 0x18 || n = 0x1a then ground
  else match t with
  | ground => ground
  | escape =>
      if n < 0x20 || n ≥ 0x7f then escape
      else if n < 0x30 then escapeIntermediate
      else if c = 'P' then device
      else if c = '[' then sequence
      else if c = ']' then command
      else if c = 'X' || c = '^' || c = '_' then passed
      else ground
  | escapeIntermediate => if 0x30 ≤ n && n < 0x7f then ground else escapeIntermediate
  | sequence => if 0x40 ≤ n && n < 0x7f then ground else sequence
  | command => if n = 0x07 then ground else command
  | device =>
      if n < 0x20 || n ≥ 0x7f then device
      else if n < 0x30 then deviceIntermediate
      else if n < 0x40 then deviceParameters
      else passed
  | deviceParameters =>
      if n < 0x20 || n ≥ 0x7f then deviceParameters
      else if n < 0x30 then deviceIntermediate
      else if n < 0x3c then deviceParameters
      else passed
  | deviceIntermediate =>
      if n < 0x30 || n ≥ 0x7f then deviceIntermediate else passed
  | passed => if endsString c then ground else passed

/-- Where the character after `c` stands, if `c` is shown. A character of more than one byte ends
what it stands in. -/
def resume (t : Terminal) (c : Char) : Terminal := if c.toNat < 0x80 then t else ground

/-- The characters that are shown first. A sequence can hold blanks, a string cannot. -/
def shows (t : Terminal) (c : Char) : Bool :=
  match t with
  | ground => isShown c
  | escape | escapeIntermediate | sequence => isBlank c
  | _ => false

/-- Leaves out control sequences and control characters. When a character has been `shown`, all
that follows it is, up to a control character; where that stands, the sequence that a blank was
found in goes on. -/
def strip (t : Terminal) (shown : Bool) : List Char → List Char
  | [] => []
  | c :: rest =>
      if t.shows c || (shown && isShown c) then c :: (t.resume c).strip true rest
      else (t.next c).strip false rest

theorem strip_ground {cs : List Char} (h : ∀ c ∈ cs, isShown c) (shown : Bool) :
    ground.strip shown cs = cs := by
  induction cs generalizing shown with
  | nil => rfl
  | cons c cs ih =>
      have hc : isShown c = true := h c (by simp)
      have hg : ground.resume c = ground := by unfold resume; split <;> rfl
      simp [strip, shows, hc, hg, ih fun d hd => h d (by simp [hd])]

end Terminal

/-- A text without the control sequences of a terminal. -/
def plain (s : String) : String := String.ofList (Terminal.ground.strip false s.toList)

/-- A text that a terminal emphasises. -/
def emphasised (s : String) : String := "\x1b[1m" ++ s ++ "\x1b[0m"

/-- A character, or the notation for it if a terminal could act on it. -/
def showControl (c : Char) : List Char :=
  match c with
  | '\x07' => ['\\', 'x', '0', '7']
  | '\x08' => ['\\', 'x', '0', '8']
  | '\x0c' => ['\\', 'x', '0', 'c']
  | '\x1b' => ['\\', 'x', '1', 'b']
  | '\x7f' => ['\\', 'x', '7', 'f']
  | _ => if 0x80 ≤ c.toNat && c.toNat < 0xa0 then codePoint c else [c]

/-- A text that no terminal acts on. -/
def inert (s : String) : String := String.ofList (s.toList.flatMap showControl)

end LockedCat.Text
