import EventPipeline.Proofs.Text.Utf8

/-! # Reading decimal digits

The parts of a number are runs of digits. A run that was written is read as a whole when no further
digit follows it, and its value is the number whose digits were written.
-/

namespace EventPipeline.Json

/-- The octets at hand do not go on with a digit. -/
def NoDigitNext (rest : Octets) : Prop := ∀ b ∈ rest.head?, isDigit b = false

/-- The octets at hand cannot belong to a number that comes before them. -/
def EndsNumber (rest : Octets) : Prop :=
  NoDigitNext rest ∧ ∀ b ∈ rest.head?, b ≠ octet '.' ∧ b ≠ octet 'e' ∧ b ≠ octet 'E'

theorem ascii_of_isDigit {c : Char} (digit : c.isDigit = true) : c.toNat < 0x80 := by
  simp only [Char.isDigit, Bool.and_eq_true, decide_eq_true_eq, UInt32.le_iff_toNat_le] at digit
  exact Nat.lt_of_le_of_lt digit.2 (by decide)

theorem isDigit_octet {c : Char} (digit : c.isDigit = true) : isDigit (octet c) = true := by
  have value := toNat_octet (ascii_of_isDigit digit)
  simp only [Char.isDigit, Bool.and_eq_true, decide_eq_true_eq, UInt32.le_iff_toNat_le] at digit
  simp only [isDigit, Bool.and_eq_true, decide_eq_true_eq, UInt8.le_iff_toNat_le, value]
  exact digit

theorem encodeChars_digits {cs : List Char} (digits : ∀ c ∈ cs, c.isDigit = true) :
    encodeChars cs = cs.map octet := by
  induction cs with
  | nil => rfl
  | cons c cs ih =>
    rw [encodeChars_cons_ascii (ascii_of_isDigit (digits c (List.mem_cons_self ..))), List.map_cons,
      ih fun d member => digits d (List.mem_cons_of_mem _ member)]

theorem digitsValue_encodeChars {cs : List Char} (digits : ∀ c ∈ cs, c.isDigit = true) :
    digitsValue (encodeChars cs) = Nat.ofDigitChars 10 cs 0 := by
  rw [encodeChars_digits digits, digitsValue, Nat.ofDigitChars, List.foldl_map]
  generalize 0 = start
  induction cs generalizing start with
  | nil => rfl
  | cons c cs ih =>
    rw [List.foldl_cons, List.foldl_cons,
      toNat_octet (ascii_of_isDigit (digits c (List.mem_cons_self ..)))]
    exact ih (fun d member => digits d (List.mem_cons_of_mem _ member)) _

/-- A run of digits is taken off the octets as a whole. -/
theorem span_digits {cs : List Char} (digits : ∀ c ∈ cs, c.isDigit = true) {rest : Octets}
    (stops : NoDigitNext rest) :
    (encodeChars cs ++ rest).takeWhile isDigit = encodeChars cs ∧
      (encodeChars cs ++ rest).dropWhile isDigit = rest := by
  have all : ∀ b ∈ encodeChars cs, isDigit b = true := by
    rw [encodeChars_digits digits]
    intro b member
    obtain ⟨c, present, rfl⟩ := List.mem_map.mp member
    exact isDigit_octet (digits c present)
  have ends : rest.takeWhile isDigit = [] ∧ rest.dropWhile isDigit = rest := by
    cases rest with
    | nil => exact ⟨rfl, rfl⟩
    | cons b rest =>
      have other : isDigit b = false := stops b rfl
      simp [other]
  rw [List.takeWhile_append_of_pos all, List.dropWhile_append_of_pos all, ends.1, ends.2]
  simp

theorem digitRun_digits {cs : List Char} (digits : ∀ c ∈ cs, c.isDigit = true) (nonempty : cs ≠ [])
    {rest : Octets} (stops : NoDigitNext rest) :
    digitRun (encodeChars cs ++ rest) = .ok (encodeChars cs, rest) := by
  obtain ⟨taken, left⟩ := span_digits digits stops
  cases cs with
  | nil => exact absurd rfl nonempty
  | cons c cs =>
    have digit := digits c (List.mem_cons_self ..)
    rw [encodeChars_cons_ascii (ascii_of_isDigit digit)] at taken left ⊢
    rw [List.cons_append] at taken left ⊢
    simp only [digitRun, isDigit_octet digit, if_true, taken, left]

/-- Digits that do not start with a zero, or a zero alone, are read as the part before the point. -/
theorem integerPart_digits {cs : List Char} (digits : ∀ c ∈ cs, c.isDigit = true) (nonempty : cs ≠ [])
    (canonical : cs = ['0'] ∨ cs.head? ≠ some '0') {rest : Octets}
    (stops : NoDigitNext rest) :
    integerPart (encodeChars cs ++ rest) = .ok (encodeChars cs, rest) := by
  rcases canonical with rfl | leading
  · have zero : encodeChars ['0'] = [octet '0'] := rfl
    rw [zero, List.singleton_append]
    simp only [integerPart, if_true]
    cases rest with
    | nil => rfl
    | cons b rest =>
      have other : isDigit b = false := stops b rfl
      simp [other]
  · have run := digitRun_digits digits nonempty stops
    cases cs with
    | nil => exact absurd rfl nonempty
    | cons c cs =>
      have digit := digits c (List.mem_cons_self ..)
      have nonzero : octet c ≠ octet '0' := fun same =>
        leading (congrArg some (octet_injOn (ascii_of_isDigit digit) (by decide) same))
      rw [encodeChars_cons_ascii (ascii_of_isDigit digit), List.cons_append] at run ⊢
      simp only [integerPart, if_neg nonzero, run]

theorem fractionPart_none {rest : Octets} (other : ∀ b ∈ rest.head?, b ≠ octet '.') :
    fractionPart rest = .ok (none, rest) := by
  cases rest with
  | nil => rfl
  | cons b rest => rw [fractionPart, if_neg (other b rfl)]

theorem fractionPart_digits {cs : List Char} (digits : ∀ c ∈ cs, c.isDigit = true) (nonempty : cs ≠ [])
    {rest : Octets} (stops : NoDigitNext rest) :
    fractionPart (encodeChars ('.' :: cs) ++ rest) = .ok (some (encodeChars cs), rest) := by
  rw [encodeChars_cons_ascii (by decide), List.cons_append, fractionPart, if_pos rfl,
    digitRun_digits digits nonempty stops]
  rfl

theorem exponentPart_none {rest : Octets} (ends : EndsNumber rest) :
    exponentPart rest = .ok (none, rest) := by
  cases rest with
  | nil => rfl
  | cons b rest =>
    obtain ⟨-, small, large⟩ := ends.2 b rfl
    rw [exponentPart, if_neg (by simp [small, large])]

/-- The number that signed digits stand for. -/
def signedValue (sign : Char) (cs : List Char) : Int :=
  if sign = '-' then -(Nat.ofDigitChars 10 cs 0 : Int) else Nat.ofDigitChars 10 cs 0

/-- An exponent with a sign is read as the number it stands for. -/
theorem exponentPart_digits {sign : Char} (signed : sign = '-' ∨ sign = '+') {cs : List Char}
    (digits : ∀ c ∈ cs, c.isDigit = true) (nonempty : cs ≠ []) {rest : Octets}
    (stops : NoDigitNext rest) :
    exponentPart (encodeChars ('e' :: sign :: cs) ++ rest) = .ok (some (signedValue sign cs), rest) := by
  have value := digitsValue_encodeChars digits
  have run := digitRun_digits digits nonempty stops
  rcases signed with rfl | rfl
  all_goals
    rw [encodeChars_cons_ascii (by decide), encodeChars_cons_ascii (by decide), List.cons_append,
      List.cons_append, exponentPart, if_pos (Or.inl rfl)]
    simp only [List.head?_cons, List.drop_succ_cons, List.drop_zero]
  · simp [run, value, Except.map, signedValue]
  · have differ : octet '+' ≠ octet '-' := by decide
    simp [run, value, Except.map, signedValue, differ]

/-! ### The digits of a number -/

theorem digits_toDigits (n : Nat) : ∀ c ∈ Nat.toDigits 10 n, c.isDigit = true :=
  fun _ member => Nat.isDigit_of_mem_toDigits (by decide) (by decide) member

theorem digitsValue_toDigits (n : Nat) : digitsValue (encodeChars (Nat.toDigits 10 n)) = n := by
  rw [digitsValue_encodeChars (digits_toDigits n), Nat.ofDigitChars_ten_toDigits]

/-- The digits of a positive number do not start with a zero. -/
theorem head?_toDigits_ne {n : Nat} (positive : 0 < n) :
    (Nat.toDigits 10 n).head? ≠ some '0' := by
  induction n using Nat.strongRecOn with
  | ind n ih =>
    rw [Nat.toDigits_eq_if (by decide)]
    split
    · next small =>
      intro leading
      have value := congrArg (fun c => c.map fun d : Char => d.toNat - 48) leading
      simp only [List.head?_cons, Option.map_some,
        Nat.toNat_digitChar_sub_48_of_lt_ten small] at value
      simp at value
      omega
    · have leading := ih (n / 10) (by omega) (by omega)
      rw [List.head?_append]
      cases digits : (Nat.toDigits 10 (n / 10)).head? with
      | none => exact absurd (List.head?_eq_none_iff.mp digits) Nat.toDigits_ne_nil
      | some c => rwa [digits] at leading

theorem canonical_toDigits (n : Nat) :
    Nat.toDigits 10 n = ['0'] ∨ (Nat.toDigits 10 n).head? ≠ some '0' := by
  rcases Nat.eq_zero_or_pos n with rfl | positive
  · exact .inl (Nat.toDigits_zero 10)
  · exact .inr (head?_toDigits_ne positive)

/-- The digits of a number are read as an integer. -/
theorem unsignedNumber_toDigits (negative : Bool) (n : Nat) {rest : Octets}
    (ends : EndsNumber rest) :
    unsignedNumber negative (encodeChars (Nat.toDigits 10 n) ++ rest) =
      (numberOfParts negative (encodeChars (Nat.toDigits 10 n)) none none).map fun m =>
        (m, rest) := by
  rw [unsignedNumber, integerPart_digits (digits_toDigits n) Nat.toDigits_ne_nil
    (canonical_toDigits n) ends.1]
  simp only [bind, Except.bind, fractionPart_none fun b member => (ends.2 b member).1,
    exponentPart_none ends]
  cases numberOfParts negative (encodeChars (Nat.toDigits 10 n)) none none <;> rfl

end EventPipeline.Json
