/-!
# Text with undecodable bytes

A command-line argument is a string of bytes and need not be text. It is read as a list of
glyphs: the characters that can be decoded, and between them the pieces that cannot. Each such
piece is as long as a sequence that could still have become a character, so that it shows as one
replacement character.
-/

namespace LockedCat.Text

/-- A character, or bytes that are part of none. -/
inductive Glyph where
  | char (c : Char)
  | undecodable (bytes : List UInt8)
deriving DecidableEq, Repr

abbrev Glyphs := List Glyph

/-- A character of which some bytes have been read: the bounds are those of the next byte. -/
structure Partial where
  bytes : List UInt8
  value : Nat
  missing : Nat
  least : UInt8 := 0x80
  most : UInt8 := 0xbf

/-- What a byte that starts something new starts. -/
def Glyph.begin (b : UInt8) : Glyph ⊕ Partial :=
  if b < 0x80 then .inl (.char (Char.ofNat b.toNat))
  else if b < 0xc2 then .inl (.undecodable [b])
  else if b < 0xe0 then .inr { bytes := [b], value := b.toNat - 0xc0, missing := 1 }
  else if b < 0xf0 then
    .inr { bytes := [b], value := b.toNat - 0xe0, missing := 2
           least := if b = 0xe0 then 0xa0 else 0x80
           most := if b = 0xed then 0x9f else 0xbf }
  else if b < 0xf5 then
    .inr { bytes := [b], value := b.toNat - 0xf0, missing := 3
           least := if b = 0xf0 then 0x90 else 0x80
           most := if b = 0xf4 then 0x8f else 0xbf }
  else .inl (.undecodable [b])

/-- What a partial character is after one more byte that lies in its bounds. -/
def Partial.extend (p : Partial) (b : UInt8) : Glyph ⊕ Partial :=
  let value := p.value * 64 + (b.toNat - 0x80)
  if p.missing ≤ 1 then .inl (.char (Char.ofNat value))
  else .inr { bytes := p.bytes ++ [b], value := value, missing := p.missing - 1 }

/-- Reads the glyphs of the bytes that follow a partial character, if there is one. -/
def Glyphs.decodeFrom : Option Partial → List UInt8 → Glyphs
  | none, [] => []
  | some p, [] => [.undecodable p.bytes]
  | none, b :: rest =>
      match Glyph.begin b with
      | .inl g => g :: decodeFrom none rest
      | .inr p => decodeFrom (some p) rest
  | some p, b :: rest =>
      if p.least ≤ b ∧ b ≤ p.most then
        match p.extend b with
        | .inl g => g :: decodeFrom none rest
        | .inr p => decodeFrom (some p) rest
      else
        match Glyph.begin b with
        | .inl g => .undecodable p.bytes :: g :: decodeFrom none rest
        | .inr q => .undecodable p.bytes :: decodeFrom (some q) rest

/-- The glyphs of a string of bytes. -/
def Glyphs.ofBytes (bytes : List UInt8) : Glyphs := Glyphs.decodeFrom none bytes

/-- A text has only characters for glyphs. -/
def Glyphs.ofString (s : String) : Glyphs := s.toList.map .char

/-- The characters of glyphs that are all characters. -/
def Glyphs.chars? : Glyphs → Option (List Char)
  | [] => some []
  | .char c :: rest => (chars? rest).map (c :: ·)
  | .undecodable _ :: _ => none

/-- The text, if there is nothing undecodable in it. -/
def Glyphs.text? (gs : Glyphs) : Option String := (Glyphs.chars? gs).map String.ofList

/-- How a glyph is shown. -/
def Glyph.shown : Glyph → Char
  | .char c => c
  | .undecodable _ => '\uFFFD'

/-- The text with a replacement character for each undecodable piece. -/
def Glyphs.shown (gs : Glyphs) : String := String.ofList (gs.map Glyph.shown)

theorem Glyphs.chars?_map_char (cs : List Char) : Glyphs.chars? (cs.map .char) = some cs := by
  induction cs with
  | nil => rfl
  | cons c cs ih => simp [chars?, ih]

@[simp] theorem Glyphs.text?_ofString (s : String) : (Glyphs.ofString s).text? = some s := by
  simp [text?, ofString, chars?_map_char]

@[simp] theorem Glyphs.shown_ofString (s : String) : (Glyphs.ofString s).shown = s := by
  simp [shown, ofString, Function.comp_def, Glyph.shown]

end LockedCat.Text
