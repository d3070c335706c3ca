import EventPipeline.Json.Writer
import EventPipeline.Proofs.Text.Utf8

/-! # Reading strings

A written string escapes quotes, backslashes and control characters and leaves all others as they
are. `string_stringChars` states that it is read back, whatever follows its closing quote.
-/

namespace EventPipeline.Json

/-- With any sufficient fuel, the octets are read as the inside of a string with the given content,
up to a closing quote and what is left after it. -/
def ReadsString (bs content rest : Octets) : Prop :=
  ∀ fuel, bs.length ≤ fuel → stringOctets fuel bs = .ok (content, rest)

theorem readsString_quote (rest : Octets) : ReadsString (octet '"' :: rest) [] rest := by
  intro fuel enough
  obtain ⟨fuel, rfl⟩ := Nat.exists_eq_add_one_of_ne_zero
    (show fuel ≠ 0 by simp only [List.length_cons] at enough; omega)
  simp only [stringOctets, if_true]

/-- An octet that is no mark of its own stands for itself. -/
theorem ReadsString.plain {b : UInt8} {bs content rest : Octets} (reads : ReadsString bs content rest)
    (quote : b ≠ octet '"') (backslash : b ≠ octet '\\') (visible : ¬ b < 0x20) :
    ReadsString (b :: bs) (b :: content) rest := by
  intro fuel enough
  obtain ⟨fuel, rfl⟩ := Nat.exists_eq_add_one_of_ne_zero
    (show fuel ≠ 0 by simp only [List.length_cons] at enough; omega)
  have tail := reads fuel (by simpa using enough)
  simp only [stringOctets, if_neg quote, if_neg backslash, if_neg visible, tail]
  rfl

/-- An escape stands for what it is read as. -/
theorem ReadsString.escaped {bs left escaped content rest : Octets}
    (reads : ReadsString left content rest) (means : escape bs = .ok (escaped, left))
    (shorter : left.length ≤ bs.length) :
    ReadsString (octet '\\' :: bs) (escaped ++ content) rest := by
  intro fuel enough
  simp only [List.length_cons] at enough
  obtain ⟨fuel, rfl⟩ := Nat.exists_eq_add_one_of_ne_zero (show fuel ≠ 0 by omega)
  have tail := reads fuel (by omega)
  have differ : octet '\\' ≠ octet '"' := by decide
  simp only [stringOctets, if_neg differ, if_true, means, bind, Except.bind, tail]
  rfl

theorem ReadsString.append {bs left content rest : Octets} (reads : ReadsString left content rest)
    (plain : ∀ b ∈ bs, b ≠ octet '"' ∧ b ≠ octet '\\' ∧ ¬ b < 0x20) :
    ReadsString (bs ++ left) (bs ++ content) rest := by
  induction bs with
  | nil => exact reads
  | cons b bs ih =>
    obtain ⟨quote, backslash, visible⟩ := plain b (List.mem_cons_self ..)
    exact (ih fun c member => plain c (List.mem_cons_of_mem _ member)).plain quote backslash visible

/-! ### Characters -/

theorem hexValue?_digitChar : ∀ n < 16, hexValue? (octet (Nat.digitChar n)) = some n := by decide

theorem digitChar_ascii : ∀ n < 16, (Nat.digitChar n).toNat < 0x80 := by decide

/-- A control character that has no short escape is read back from its four digits. -/
theorem escape_unicode {n : Nat} (control : n < 0x20) (rest : Octets) :
    escape (encodeChars ('u' :: '0' :: '0' :: Text.hexPair n) ++ rest) =
      .ok (codePoint n, rest) := by
  have high : n / 16 < 16 := by omega
  have low : n % 16 < 16 := by omega
  have written : encodeChars ('u' :: '0' :: '0' :: Text.hexPair n) =
      [octet 'u', octet '0', octet '0', octet (Nat.digitChar (n / 16)),
        octet (Nat.digitChar (n % 16))] := by
    rw [Text.hexPair, encodeChars_cons_ascii (by decide), encodeChars_cons_ascii (by decide),
      encodeChars_cons_ascii (by decide), encodeChars_cons_ascii (digitChar_ascii _ high),
      encodeChars_cons_ascii (digitChar_ascii _ low), encodeChars_nil]
  have zero : hexValue? (octet '0') = some 0 := by decide
  have unit : hexUnit (octet '0' :: octet '0' :: octet (Nat.digitChar (n / 16)) ::
      octet (Nat.digitChar (n % 16)) :: rest) = .ok (n, rest) := by
    simp only [hexUnit, zero, hexValue?_digitChar _ high, hexValue?_digitChar _ low]
    congr 2
    omega
  have single : ¬ (0xDC00 ≤ n ∧ n ≤ 0xDFFF) := by omega
  have unpaired : n < 0xD800 ∨ 0xDBFF < n := by omega
  rw [written]
  change unicodeEscape (octet '0' :: octet '0' :: octet (Nat.digitChar (n / 16)) ::
      octet (Nat.digitChar (n % 16)) :: rest) = _
  simp only [unicodeEscape, unit, bind, Except.bind, if_neg single, if_pos unpaired]

/-- A backslash and a letter stand for the octet that the letter means. -/
theorem ReadsString.short {letter : Char} {meant : UInt8} {left content rest : Octets}
    (reads : ReadsString left content rest) (ascii : letter.toNat < 0x80)
    (means : escape (octet letter :: left) = .ok ([meant], left)) :
    ReadsString (encodeChars ['\\', letter] ++ left) (meant :: content) rest := by
  rw [encodeChars_cons_ascii (by decide), encodeChars_cons_ascii ascii, encodeChars_nil]
  exact reads.escaped means (by simp)

/-- What is written for one character is read as that character. -/
theorem ReadsString.escapedChar {left content rest : Octets} (reads : ReadsString left content rest)
    (c : Char) :
    ReadsString (encodeChars (escapedChar c) ++ left) (String.utf8EncodeChar c ++ content) rest := by
  unfold Json.escapedChar
  split
  · exact reads.short (by decide) rfl
  · exact reads.short (by decide) rfl
  · exact reads.short (by decide) rfl
  · exact reads.short (by decide) rfl
  · exact reads.short (by decide) rfl
  · exact reads.short (by decide) rfl
  · exact reads.short (by decide) rfl
  · next _ quote backslash _ _ _ _ _ =>
    split
    · next control =>
      have written : encodeChars (['\\', 'u', '0', '0'] ++ Text.hexPair c.toNat) ++ left =
          octet '\\' :: (encodeChars ('u' :: '0' :: '0' :: Text.hexPair c.toNat) ++ left) := by
        rw [List.cons_append, encodeChars_cons_ascii (by decide)]
        rfl
      have same : codePoint c.toNat = String.utf8EncodeChar c := by
        rw [codePoint, Char.ofNat_toNat]
      rw [written, ← same]
      exact reads.escaped (escape_unicode control left) (by rw [List.length_append]; omega)
    · next visible =>
      rw [encodeChars_cons, encodeChars_nil, List.append_nil]
      apply reads.append
      intro b member
      by_cases ascii : c.toNat < 0x80
      · rw [utf8EncodeChar_of_ascii ascii, List.mem_singleton] at member
        subst member
        refine ⟨fun same => quote (octet_injOn ascii (by decide) same),
          fun same => backslash (octet_injOn ascii (by decide) same), ?_⟩
        rw [UInt8.lt_iff_toNat_lt, toNat_octet ascii]
        exact visible
      · have high := le_of_mem_utf8EncodeChar (by omega) member
        refine ⟨?_, ?_, ?_⟩
        · rintro rfl
          exact absurd high (by decide)
        · rintro rfl
          exact absurd high (by decide)
        · rw [UInt8.lt_iff_toNat_lt]
          exact Nat.not_lt.mpr (Nat.le_trans (by decide) high)

theorem readsString_chars (cs : List Char) (rest : Octets) :
    ReadsString (encodeChars (cs.flatMap escapedChar) ++ octet '"' :: rest) (encodeChars cs)
      rest := by
  induction cs with
  | nil => exact readsString_quote rest
  | cons c cs ih =>
    rw [List.flatMap_cons, encodeChars_append, List.append_assoc, encodeChars_cons]
    exact ih.escapedChar c

/-- A written string is read back, whatever follows it. -/
theorem string_stringChars (s : String) (rest : Octets) :
    string (encodeChars (s.toList.flatMap escapedChar) ++ octet '"' :: rest) = .ok (s, rest) := by
  have content := readsString_chars s.toList rest _ (Nat.le_refl _)
  have text : textOf? (encodeChars s.toList) = some s := textOf?_octetsOf s
  simp only [string, content, bind, Except.bind, text]
  rfl

/-- The written form of a string starts with its quote. -/
theorem encodeChars_stringChars (s : String) (rest : Octets) :
    encodeChars (stringChars s) ++ rest =
      octet '"' :: (encodeChars (s.toList.flatMap escapedChar) ++ octet '"' :: rest) := by
  have quote : encodeChars ['"'] = [octet '"'] := rfl
  rw [stringChars, List.cons_append, encodeChars_cons_ascii (by decide), encodeChars_append, quote]
  simp

end EventPipeline.Json
