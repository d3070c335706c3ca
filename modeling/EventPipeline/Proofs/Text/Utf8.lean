import EventPipeline.Json.Reader

/-! # Octets of written texts

Readers take octets and writers make characters. A character of the ASCII range is one octet, and
the octets of all others lie above that range, so a reader that looks for ASCII marks finds exactly
those that were written.
-/

namespace EventPipeline

@[simp] theorem encodeChars_nil : encodeChars [] = [] := rfl

theorem encodeChars_cons (c : Char) (cs : List Char) :
    encodeChars (c :: cs) = String.utf8EncodeChar c ++ encodeChars cs := rfl

@[simp] theorem encodeChars_append (cs ds : List Char) :
    encodeChars (cs ++ ds) = encodeChars cs ++ encodeChars ds := by
  simp [encodeChars]

/-- Octets are the text of exactly the string whose UTF-8 form they are. -/
theorem textOf?_eq_some_iff {bs : Octets} {s : String} : textOf? bs = some s ↔ octetsOf s = bs := by
  constructor
  · intro made
    have form : (octetsOf s).toByteArray = s.toByteArray := String.utf8Encode_toList
    rw [textOf?, String.fromUTF8?] at made
    split at made
    · cases made
      exact List.toByteArray_inj.mp form
    · cases made
  · rintro rfl
    exact textOf?_octetsOf s

namespace Json

theorem toNat_octet {c : Char} (ascii : c.toNat < 0x80) : (octet c).toNat = c.toNat := by
  simp only [octet, Nat.toUInt8, UInt8.toNat_ofNat']
  omega

theorem octet_injOn {c d : Char} (hc : c.toNat < 0x80) (hd : d.toNat < 0x80)
    (same : octet c = octet d) : c = d := by
  have values := congrArg UInt8.toNat same
  rw [toNat_octet hc, toNat_octet hd] at values
  exact Char.toNat_inj.mp values

/-- A character of the ASCII range is one octet. -/
theorem utf8EncodeChar_of_ascii {c : Char} (ascii : c.toNat < 0x80) :
    String.utf8EncodeChar c = [octet c] := by
  have small : c.val.toNat ≤ 0x7f := Nat.le_of_lt_succ ascii
  simp only [String.utf8EncodeChar, if_pos small]
  rfl

@[simp] theorem encodeChars_cons_ascii {c : Char} (ascii : c.toNat < 0x80) (cs : List Char) :
    encodeChars (c :: cs) = octet c :: encodeChars cs := by
  rw [encodeChars_cons, utf8EncodeChar_of_ascii ascii, List.singleton_append]

/-- Every octet of another character lies above the ASCII range. -/
theorem le_of_mem_utf8EncodeChar {c : Char} (high : 0x80 ≤ c.toNat) {b : UInt8}
    (member : b ∈ String.utf8EncodeChar c) : 0x80 ≤ b.toNat := by
  have large : ¬ c.val.toNat ≤ 0x7f := Nat.not_le_of_gt high
  have above (n base : Nat) (hb : 0x80 ≤ base) (hn : n + base < 256) :
      0x80 ≤ (UInt8.ofNat (n + base)).toNat := by
    rw [UInt8.toNat_ofNat']
    omega
  simp only [String.utf8EncodeChar, if_neg large] at member
  split at member
  · simp only [List.mem_cons, List.not_mem_nil, or_false] at member
    rcases member with rfl | rfl <;> exact above _ _ (by decide) (by omega)
  · split at member <;> simp only [List.mem_cons, List.not_mem_nil, or_false] at member
    · rcases member with rfl | rfl | rfl <;> exact above _ _ (by decide) (by omega)
    · rcases member with rfl | rfl | rfl | rfl <;> exact above _ _ (by decide) (by omega)

end Json

end EventPipeline
