import EventPipeline.Text.Glyphless
import EventPipeline.Text.Octets

/-! # Quoted text

The readable form of a text between double quotes, as messages show it: quotes, backslashes and the
common controls are written with a backslash, characters without a glyph of their own by their code
point, and all others as they are. Octets that are not UTF-8 have a readable form too.
-/

namespace EventPipeline.Text

/-- One character inside double quotes. -/
def quotedChar (c : Char) : List Char :=
  match c with
  | '\x00' => ['\\', '0']
  | '\t' => ['\\', 't']
  | '\n' => ['\\', 'n']
  | '\r' => ['\\', 'r']
  | '"' => ['\\', '"']
  | '\\' => ['\\', '\\']
  | c =>
    if isGlyphless c then
      ['\\', 'u', '\x7b'] ++ Nat.toDigits 16 c.toNat ++ ['\x7d']
    else [c]

/-- A text between double quotes. -/
def quoted (s : String) : String :=
  String.ofList ('"' :: s.toList.flatMap quotedChar ++ ['"'])

/-- The character that octets begin with, and the octets after it. -/
def firstChar? (bs : Octets) : Option (Char × Octets) :=
  [1, 2, 3, 4].findSome? fun n =>
    match (textOf? (bs.take n)).map String.toList with
    | some [c] => some (c, bs.drop n)
    | _ => none

/-- An octet that is no part of a character, inside double quotes. -/
def quotedOctet (b : UInt8) : List Char := ['\\', 'x'] ++ (hexPair b.toNat).map Char.toUpper

/-- Octets inside double quotes, of which at most `fuel` are read; here single quotes are written with
a backslash too. -/
def quotedBytes : (fuel : Nat) → Octets → List Char
  | 0, _ | _, [] => []
  | fuel + 1, b :: bs =>
    match firstChar? (b :: bs) with
    | some ('\'', rest) => ['\\', '\''] ++ quotedBytes fuel rest
    | some (c, rest) => quotedChar c ++ quotedBytes fuel rest
    | none => quotedOctet b ++ quotedBytes fuel bs

/-- Octets between double quotes. -/
def quotedOctets (bs : Octets) : String :=
  String.ofList ('"' :: quotedBytes bs.length bs ++ ['"'])

end EventPipeline.Text
