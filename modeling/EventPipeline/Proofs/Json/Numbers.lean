import EventPipeline.Json.Writer
import EventPipeline.Proofs.Json.Digits
import EventPipeline.Proofs.Number.Shortest

/-! # Reading numbers

A written number is read back as the number it was written for: an integer from its digits, a
floating-point number from its shortest decimal, wherever the point stands in it and whether or not
it has an exponent (`number_chars`).
-/

namespace EventPipeline.Json

/-- A run of digits that can stand before a point. -/
structure WholePart (cs : List Char) : Prop where
  digits : ∀ c ∈ cs, c.isDigit = true
  nonempty : cs ≠ []
  canonical : cs = ['0'] ∨ cs.head? ≠ some '0'

/-- A run of digits that can stand after a point or a sign. -/
structure DigitPart (cs : List Char) : Prop where
  digits : ∀ c ∈ cs, c.isDigit = true
  nonempty : cs ≠ []

/-- Characters that spell the decimal `digits * 10 ^ scale` with a fraction or an exponent. -/
inductive Spells : List Char → Nat → Int → Prop where
  | fraction {whole part : List Char} (hw : WholePart whole) (hp : DigitPart part) :
    Spells (whole ++ '.' :: part) (Nat.ofDigitChars 10 (whole ++ part) 0) (-part.length)
  | exponent {whole power : List Char} {sign : Char} (hw : WholePart whole)
    (signed : sign = '-' ∨ sign = '+') (he : DigitPart power) :
    Spells (whole ++ 'e' :: sign :: power) (Nat.ofDigitChars 10 whole 0) (signedValue sign power)
  | both {whole part power : List Char} {sign : Char} (hw : WholePart whole) (hp : DigitPart part)
    (signed : sign = '-' ∨ sign = '+') (he : DigitPart power) :
    Spells (whole ++ '.' :: part ++ 'e' :: sign :: power)
      (Nat.ofDigitChars 10 (whole ++ part) 0) (signedValue sign power - part.length)

theorem noDigitNext_cons {c : Char} (ascii : c.toNat < 0x80) (other : isDigit (octet c) = false)
    (cs : List Char) (rest : Octets) : NoDigitNext (encodeChars (c :: cs) ++ rest) := by
  rw [encodeChars_cons_ascii ascii]
  rintro b ⟨⟩
  exact other

theorem digitsValue_parts {whole part : List Char} (hw : WholePart whole) (hp : DigitPart part) :
    digitsValue (encodeChars whole ++ encodeChars part) =
      Nat.ofDigitChars 10 (whole ++ part) 0 := by
  rw [← encodeChars_append, digitsValue_encodeChars]
  intro c member
  rcases List.mem_append.mp member with first | second
  · exact hw.digits c first
  · exact hp.digits c second

theorem length_encodeChars_digits {cs : List Char} (digits : ∀ c ∈ cs, c.isDigit = true) :
    (encodeChars cs).length = cs.length := by
  rw [encodeChars_digits digits, List.length_map]

/-- What spells a decimal that can be rounded is read as the number it is rounded to. -/
theorem unsignedNumber_of_spells {cs : List Char} {digits : Nat} {scale : Int}
    (spells : Spells cs digits scale) {negative : Bool} {x : Double}
    (rounds : Double.ofDecimal negative digits scale = some x) {rest : Octets}
    (ends : EndsNumber rest) :
    unsignedNumber negative (encodeChars cs ++ rest) = .ok (.double x, rest) := by
  have notE : isDigit (octet 'e') = false := by decide
  have notPoint : isDigit (octet '.') = false := by decide
  cases spells with
  | @fraction whole part hw hp =>
    rw [encodeChars_append, List.append_assoc, unsignedNumber,
      integerPart_digits hw.digits hw.nonempty hw.canonical
        (noDigitNext_cons (by decide) notPoint part rest)]
    simp only [bind, Except.bind, fractionPart_digits hp.digits hp.nonempty ends.1,
      exponentPart_none ends, numberOfParts, Option.getD_some, Option.getD_none,
      digitsValue_parts hw hp, length_encodeChars_digits hp.digits, Int.zero_sub, rounds]
    rfl
  | @exponent whole power sign hw signed he =>
    have other : ∀ b ∈ (encodeChars ('e' :: sign :: power) ++ rest).head?, b ≠ octet '.' := by
      rw [encodeChars_cons_ascii (by decide)]
      rintro b ⟨⟩
      decide
    rw [encodeChars_append, List.append_assoc, unsignedNumber,
      integerPart_digits hw.digits hw.nonempty hw.canonical
        (noDigitNext_cons (by decide) notE (sign :: power) rest)]
    simp only [bind, Except.bind, fractionPart_none other,
      exponentPart_digits signed he.digits he.nonempty ends.1, numberOfParts, Option.getD_some,
      Option.getD_none, List.append_nil, List.length_nil, Int.sub_zero, Nat.cast_zero,
      digitsValue_encodeChars hw.digits, rounds]
    rfl
  | @both whole part power sign hw hp signed he =>
    rw [encodeChars_append, encodeChars_append, List.append_assoc, List.append_assoc,
      unsignedNumber, integerPart_digits hw.digits hw.nonempty hw.canonical
        (noDigitNext_cons (by decide) notPoint part _)]
    simp only [bind, Except.bind, fractionPart_digits hp.digits hp.nonempty
        (noDigitNext_cons (by decide) notE (sign :: power) rest),
      exponentPart_digits signed he.digits he.nonempty ends.1, numberOfParts, Option.getD_some,
      digitsValue_parts hw hp, length_encodeChars_digits hp.digits, rounds]
    rfl

/-! ### What is written for a floating-point number -/

theorem digitPart_toDigits (n : Nat) : DigitPart (Nat.toDigits 10 n) :=
  ⟨digits_toDigits n, Nat.toDigits_ne_nil⟩

theorem wholePart_toDigits (n : Nat) : WholePart (Nat.toDigits 10 n) :=
  ⟨digits_toDigits n, Nat.toDigits_ne_nil, canonical_toDigits n⟩

theorem wholePart_zero : WholePart ['0'] := wholePart_toDigits 0

theorem digitPart_zeros_append (n : Nat) {cs : List Char} (hd : DigitPart cs) :
    DigitPart (List.replicate n '0' ++ cs) := by
  refine ⟨?_, by simp [hd.nonempty]⟩
  intro c member
  rcases List.mem_append.mp member with zero | digit
  · rw [List.eq_of_mem_replicate zero]
    decide
  · exact hd.digits c digit

/-- A first part of the digits of a positive number stands before a point. -/
theorem WholePart.take {cs : List Char} (hd : DigitPart cs) (leading : cs.head? ≠ some '0')
    {n : Nat} (positive : 0 < n) : WholePart (cs.take n) := by
  refine ⟨fun c member => hd.digits c (List.mem_of_mem_take member), ?_, .inr ?_⟩
  · rw [Ne, List.take_eq_nil_iff]
    simp [hd.nonempty, positive.ne']
  · rwa [List.head?_take, if_neg positive.ne']

theorem DigitPart.drop {cs : List Char} (hd : DigitPart cs) {n : Nat} (within : n < cs.length) :
    DigitPart (cs.drop n) :=
  ⟨fun c member => hd.digits c (List.mem_of_mem_drop member), by simp [within]⟩

theorem ofDigitChars_zeros_append (n : Nat) (cs : List Char) :
    Nat.ofDigitChars 10 ('0' :: (List.replicate n '0' ++ cs)) 0 = Nat.ofDigitChars 10 cs 0 := by
  rw [← List.cons_append, ← List.replicate_succ, Nat.ofDigitChars_append,
    Nat.ofDigitChars_replicate_zero, Nat.mul_zero]

theorem ofDigitChars_append_zeros (cs : List Char) (n : Nat) :
    Nat.ofDigitChars 10 (cs ++ List.replicate n '0') 0 = 10 ^ n * Nat.ofDigitChars 10 cs 0 := by
  rw [Nat.ofDigitChars_append, Nat.ofDigitChars_replicate_zero]

theorem WholePart.append {cs ds : List Char} (hw : WholePart cs) (leading : cs.head? ≠ some '0')
    (digits : ∀ c ∈ ds, c.isDigit = true) : WholePart (cs ++ ds) := by
  refine ⟨?_, by simp [hw.nonempty], .inr ?_⟩
  · intro c member
    rcases List.mem_append.mp member with first | second
    · exact hw.digits c first
    · exact digits c second
  · rwa [List.head?_append_of_ne_nil _ hw.nonempty]

/-- The digits of a decimal in scientific notation spell it. -/
theorem spells_scientific {n : Nat} (positive : 0 < n) {power : Int} {sign : Char}
    (signed : sign = if power < 0 then '-' else '+') :
    Spells ((Nat.toDigits 10 n).take 1 ++
      (if (Nat.toDigits 10 n).length = 1 then [] else '.' :: (Nat.toDigits 10 n).drop 1) ++
        ['e', sign] ++ Nat.toDigits 10 power.natAbs) n
      (power - ((Nat.toDigits 10 n).length - 1 : Nat)) := by
  have whole := WholePart.take (digitPart_toDigits n) (head?_toDigits_ne positive) Nat.one_pos
  have mark : sign = '-' ∨ sign = '+' := by
    rw [signed]
    split_ifs <;> simp
  have value : signedValue sign (Nat.toDigits 10 power.natAbs) = power := by
    rw [signedValue, Nat.ofDigitChars_ten_toDigits, signed]
    by_cases below : power < 0
    · rw [if_pos below, if_pos rfl]
      omega
    · rw [if_neg below, if_neg (by decide)]
      omega
  have some := Nat.length_toDigits_pos (b := 10) (n := n)
  split_ifs with single
  · have all : (Nat.toDigits 10 n).take 1 = Nat.toDigits 10 n :=
      List.take_of_length_le single.le
    have spells := Spells.exponent whole mark (digitPart_toDigits power.natAbs)
    rw [value, all, Nat.ofDigitChars_ten_toDigits] at spells
    simpa [single, all] using spells
  · have part := DigitPart.drop (digitPart_toDigits n) (n := 1) (by omega)
    have spells := Spells.both whole part mark (digitPart_toDigits power.natAbs)
    rw [value, List.take_append_drop, Nat.ofDigitChars_ten_toDigits, List.length_drop] at spells
    rw [List.append_assoc _ ['e', sign]]
    exact spells

/-- A decimal that is whole is written with a zero after its point. -/
theorem spells_whole {n : Nat} (positive : 0 < n) (zeros : Nat) :
    Spells (Nat.toDigits 10 n ++ List.replicate zeros '0' ++ ['.', '0']) (10 ^ (zeros + 1) * n)
      (-1) := by
  have added : ∀ c ∈ List.replicate zeros '0', c.isDigit = true := by
    intro c member
    rw [List.eq_of_mem_replicate member]
    decide
  have whole := (wholePart_toDigits n).append (head?_toDigits_ne positive) added
  have spells := Spells.fraction whole (digitPart_toDigits 0)
  rwa [Nat.toDigits_zero, List.append_assoc _ _ ['0'], ← List.replicate_succ',
    ofDigitChars_append_zeros, Nat.ofDigitChars_ten_toDigits] at spells

/-- A decimal may be written with its point between two of its digits. -/
theorem spells_split {n before : Nat} (positive : 0 < n) (some : 0 < before)
    (within : before < (Nat.toDigits 10 n).length) :
    Spells ((Nat.toDigits 10 n).take before ++ '.' :: (Nat.toDigits 10 n).drop before) n
      (-((Nat.toDigits 10 n).length - before : Nat)) := by
  have spells := Spells.fraction
    (WholePart.take (digitPart_toDigits n) (head?_toDigits_ne positive) some)
    (DigitPart.drop (digitPart_toDigits n) within)
  rwa [List.take_append_drop, Nat.ofDigitChars_ten_toDigits, List.length_drop] at spells

/-- A decimal below one may be written with zeros after its point. -/
theorem spells_small (n zeros : Nat) :
    Spells ('0' :: '.' :: List.replicate zeros '0' ++ Nat.toDigits 10 n) n
      (-(zeros + (Nat.toDigits 10 n).length : Nat)) := by
  have spells := Spells.fraction wholePart_zero
    (digitPart_zeros_append zeros (digitPart_toDigits n))
  rwa [List.singleton_append, List.singleton_append, ofDigitChars_zeros_append, Nat.ofDigitChars_ten_toDigits,
    List.length_append, List.length_replicate] at spells

/-- What is written for a decimal spells one of the same value. -/
theorem exists_spells_write (d : Decimal) :
    ∃ digits scale, Spells (numberStyle.write d) digits scale ∧
      Decimal.value digits scale = Decimal.value d.digits d.scale ∧ (d.digits = 0 → digits = 0) := by
  have sign (power : Int) : (if power < 0 then ['-'] else if numberStyle.plusSign then ['+'] else []) =
      [if power < 0 then '-' else '+'] := by
    split_ifs <;> first | rfl | exact absurd rfl ‹_›
  rcases Nat.eq_zero_or_pos d.digits with zero | positive
  · refine ⟨0, -1, ?_, ?_, fun _ => rfl⟩
    · simp only [DecimalStyle.write, if_pos zero]
      exact .fraction wholePart_zero (digitPart_toDigits 0)
    · simp [Decimal.value, zero]
  have some := Nat.length_toDigits_pos (b := 10) (n := d.digits)
  simp only [DecimalStyle.write, if_neg positive.ne', sign]
  split
  · next whole =>
    refine ⟨_, _, spells_whole positive _, ?_, fun absent => absurd absent positive.ne'⟩
    rw [Decimal.value, Decimal.value]
    push_cast
    rw [pow_succ, mul_assoc, ← zpow_natCast, Int.toNat_of_nonneg whole.1]
    ring
  split
  · have scale : -(((Nat.toDigits 10 d.digits).length -
        ((Nat.toDigits 10 d.digits).length + d.scale).toNat : Nat) : Int) = d.scale := by
      omega
    refine ⟨_, _, spells_split positive (by omega) (by omega), ?_,
      fun absent => absurd absent positive.ne'⟩
    rw [scale]
  split
  · have scale : -(((-((Nat.toDigits 10 d.digits).length + d.scale)).toNat +
        (Nat.toDigits 10 d.digits).length : Nat) : Int) = d.scale := by
      omega
    refine ⟨_, _, spells_small _ _, ?_, fun absent => absurd absent positive.ne'⟩
    rw [scale]
  · have scale : (Nat.toDigits 10 d.digits).length + d.scale - 1 -
        ((Nat.toDigits 10 d.digits).length - 1 : Nat) = d.scale := by
      omega
    refine ⟨_, _, spells_scientific positive rfl, ?_, fun absent => absurd absent positive.ne'⟩
    rw [scale]

/-- A written number is read back, if nothing follows that could belong to it. -/
theorem unsignedNumber_double (x : Double) {rest : Octets} (ends : EndsNumber rest) :
    unsignedNumber x.negative (encodeChars (numberStyle.write x.shortest) ++ rest) =
      .ok (.double x, rest) := by
  obtain ⟨digits, scale, spells, value, zero⟩ := exists_spells_write x.shortest
  apply unsignedNumber_of_spells spells _ ends
  cases nonzero : x.isZero with
  | true =>
    have none : x.shortest.digits = 0 := by simp [Double.shortest, nonzero]
    have code : x.code = 0 := by simpa [Double.isZero] using nonzero
    rw [zero none, Double.ofDecimal, if_pos rfl, Double.zero]
    cases x
    cases code
    rfl
  | false =>
    have covered := Double.covers_shortest nonzero
    exact Double.ofDecimal_of_covers nonzero (value ▸ covered)

theorem WholePart.starts {cs : List Char} (hw : WholePart cs) (ds : List Char) :
    ∃ c rest, cs ++ ds = c :: rest ∧ c.isDigit = true := by
  cases cs with
  | nil => exact absurd rfl hw.nonempty
  | cons c cs => exact ⟨c, cs ++ ds, rfl, hw.digits c (List.mem_cons_self ..)⟩

theorem Spells.starts {cs : List Char} {digits : Nat} {scale : Int}
    (spells : Spells cs digits scale) : ∃ c rest, cs = c :: rest ∧ c.isDigit = true := by
  cases spells with
  | fraction hw hp => exact hw.starts _
  | exponent hw signed he => exact hw.starts _
  | both hw hp signed he => rw [List.append_assoc]; exact hw.starts _

/-- The digits of an integer are read as that integer. -/
theorem numberOfParts_toDigits (n : Integer) :
    numberOfParts (n.val < 0) (encodeChars (Nat.toDigits 10 n.val.natAbs)) none none =
      .ok (.integer n) := by
  have value : (if n.val < 0 then -(n.val.natAbs : Int) else n.val.natAbs) = n.val := by
    split_ifs <;> omega
  have whole : Integer.ofInt? n.val = some n := dif_pos ⟨n.least, n.greatest⟩
  have signed : ¬ (n.val < 0 ∧ n.val.natAbs = 0) := by omega
  simp only [numberOfParts, Option.getD_none, List.append_nil, digitsValue_toDigits,
    decide_eq_true_eq, if_neg signed, value, whole]

/-- A written number is a sign, if it is negative, and a digit with more after it, which are read as
that number. -/
theorem number_chars (n : Number) :
    ∃ (negative : Bool) (c : Char) (cs : List Char),
      n.chars = (if negative then ['-'] else []) ++ c :: cs ∧ c.isDigit = true ∧
      ∀ rest, EndsNumber rest →
        unsignedNumber negative (encodeChars (c :: cs) ++ rest) = .ok (n, rest) := by
  cases n with
  | integer n =>
    obtain ⟨c, cs, digits, digit⟩ := (wholePart_toDigits n.val.natAbs).starts []
    rw [List.append_nil] at digits
    refine ⟨n.val < 0, c, cs, ?_, digit, ?_⟩
    · simp only [Number.chars, intChars, digits, decide_eq_true_eq]
    · intro rest ends
      rw [← digits, unsignedNumber_toDigits _ _ ends, numberOfParts_toDigits]
      rfl
  | double x =>
    obtain ⟨_, _, spells, -⟩ := exists_spells_write x.shortest
    obtain ⟨c, cs, digits, digit⟩ := spells.starts
    refine ⟨x.negative, c, cs, ?_, digit, ?_⟩
    · rw [← digits]
      rfl
    · intro rest ends
      rw [← digits]
      exact unsignedNumber_double x ends

end EventPipeline.Json
