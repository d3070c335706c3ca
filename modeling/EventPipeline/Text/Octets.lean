/-! # Texts as octets

The UTF-8 form of a text and the text of a UTF-8 form. `textOf?` refuses every sequence of octets
that is not the form of some text, and `textOf?_octetsOf` states that a text is read back. A single
octet can also be written with two hexadecimal digits.
-/

namespace EventPipeline

/-- A sequence of octets. -/
abbrev Octets := List UInt8

/-- The UTF-8 form of a list of characters. -/
def encodeChars (cs : List Char) : Octets := cs.flatMap String.utf8EncodeChar

/-- The UTF-8 form of a text. -/
def octetsOf (s : String) : Octets := encodeChars s.toList

/-- The text whose UTF-8 form is given, if it is one. -/
def textOf? (bytes : Octets) : Option String := String.fromUTF8? bytes.toByteArray

/-- The two hexadecimal digits of a number below 256. -/
def Text.hexPair (n : Nat) : List Char := [Nat.digitChar (n / 16), Nat.digitChar (n % 16)]

theorem textOf?_encodeChars (cs : List Char) :
    textOf? (encodeChars cs) = some (String.ofList cs) := by
  have same : (encodeChars cs).toByteArray = (String.ofList cs).toByteArray := by
    simp [encodeChars, List.utf8Encode]
  have valid : ByteArray.IsValidUTF8 (encodeChars cs).toByteArray :=
    same ▸ (String.ofList cs).isValidUTF8
  rw [textOf?, String.fromUTF8?, dif_pos valid]
  exact congrArg some (String.toByteArray_inj.mp same)

theorem textOf?_octetsOf (s : String) : textOf? (octetsOf s) = some s := by
  rw [octetsOf, textOf?_encodeChars, String.ofList_toList]

end EventPipeline
