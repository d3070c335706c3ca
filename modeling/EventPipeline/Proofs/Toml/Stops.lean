import EventPipeline.Toml.Reader

/-! # Readers that a quotation mark stops

Numbers, dates and words have no quotation mark in them, so their readers go no further than the next
one. What they read and what they leave before it do not depend on what stands after it: `Stops` says
that a reader does the same with a mark behind a text as at the text's end.
-/

namespace EventPipeline.Toml

/-- A text with a quotation mark and more behind it. -/
def marked (s a : List Char) : List Char := a ++ '"' :: s

/-- A reader that leaves an end of the text and that stops at a quotation mark. -/
structure Stops {α : Type} (read : List Char → Option (α × List Char)) : Prop where
  suffix : ∀ {cs x rest}, read cs = some (x, rest) → rest <:+ cs
  stable : ∀ a s, read (marked s a) = (read a).map (Prod.map id (marked s))

/-- The same for a reader that answers only what it leaves. -/
structure Passes (skip : List Char → Option (List Char)) : Prop where
  suffix : ∀ {cs rest}, skip cs = some rest → rest <:+ cs
  stable : ∀ a s, skip (marked s a) = (skip a).map (marked s)

variable {α β : Type} (s : List Char)

@[simp] theorem marked_nil : marked s [] = '"' :: s := rfl

@[simp] theorem marked_cons (c : Char) (a : List Char) : marked s (c :: a) = c :: marked s a := rfl

theorem dropWhile_marked {p : Char → Bool} (stops : p '"' = false) (a : List Char) :
    (marked s a).dropWhile p = marked s (a.dropWhile p) := by
  induction a with
  | nil => simp [stops]
  | cons c a ih =>
    cases taken : p c with
    | true => simpa [taken] using ih
    | false => simp [taken]

theorem takeWhile_marked {p : Char → Bool} (stops : p '"' = false) (a : List Char) :
    (marked s a).takeWhile p = a.takeWhile p := by
  induction a with
  | nil => simp [stops]
  | cons c a ih =>
    cases taken : p c with
    | true => simpa [taken] using ih
    | false => simp [taken]

theorem prefix_marked_iff {word : List Char} (quoteless : '"' ∉ word) (a : List Char) :
    word <+: marked s a ↔ word <+: a := by
  induction word generalizing a with
  | nil => simp
  | cons c word ih =>
    obtain ⟨other, quoteless⟩ : '"' ≠ c ∧ '"' ∉ word := by simpa using quoteless
    rcases a with _ | ⟨d, a⟩
    · simp [other.symm]
    · simp [List.cons_prefix_cons, ih quoteless]

/-! ### Readers made of others -/

/-- A reader that another follows. -/
theorem Stops.bind {read : List Char → Option (α × List Char)}
    {next : α → List Char → Option (β × List Char)} (first : Stops read)
    (second : ∀ x, Stops (next x)) : Stops fun cs => read cs >>= fun r => next r.1 r.2 where
  suffix made := by
    obtain ⟨r, one, two⟩ := Option.bind_eq_some_iff.mp made
    exact ((second r.1).suffix two).trans (first.suffix one)
  stable a s := by
    simp only [first.stable a s]
    cases read a with
    | none => rfl
    | some r => exact (second r.1).stable r.2 s

/-- An answer, if there is one, without reading. -/
theorem Stops.answer (x? : Option α) : Stops fun cs => x? >>= fun x => pure (x, cs) where
  suffix made := by
    obtain ⟨x, -, same⟩ := Option.bind_eq_some_iff.mp made
    cases same
    exact List.suffix_rfl
  stable a s := by cases x? <;> rfl

theorem Stops.pass {read : List Char → Option (α × List Char)}
    {next : α → List Char → Option (List Char)} (first : Stops read) (second : ∀ x, Passes (next x)) :
    Passes fun cs => read cs >>= fun r => next r.1 r.2 where
  suffix made := by
    obtain ⟨r, one, two⟩ := Option.bind_eq_some_iff.mp made
    exact ((second r.1).suffix two).trans (first.suffix one)
  stable a s := by
    simp only [first.stable a s]
    cases read a with
    | none => rfl
    | some r => exact (second r.1).stable r.2 s

theorem Passes.bind {skip next : List Char → Option (List Char)} (first : Passes skip)
    (second : Passes next) : Passes fun cs => skip cs >>= next where
  suffix made := by
    obtain ⟨rest, one, two⟩ := Option.bind_eq_some_iff.mp made
    exact (second.suffix two).trans (first.suffix one)
  stable a s := by
    simp only [first.stable a s]
    cases skip a with
    | none => rfl
    | some rest => exact second.stable rest s

theorem passes_pure : Passes fun cs => some cs where
  suffix made := by cases made; exact List.suffix_rfl
  stable _ _ := rfl

/-- What a reader leaves behind one more character. -/
theorem suffix_cons {rest cs : List Char} (h : rest <:+ cs) (c : Char) : rest <:+ c :: cs :=
  h.trans (List.suffix_cons c cs)

/-! ### Digits -/

/-- The digits of a base: neither a quotation mark nor an underscore is one. -/
structure Digits (p : Char → Bool) : Prop where
  mark : p '"' = false
  underscore : p '_' = false

theorem isDigit_digits : Digits isDigit := ⟨by decide, by decide⟩

theorem digitRun_suffix (p : Char → Bool) (cs : List Char) : (digitRun p cs).2 <:+ cs := by
  fun_induction digitRun p cs with
  | case1 d rest digit ds left run ih =>
    rw [run] at ih
    exact suffix_cons (suffix_cons ih d) '_'
  | case2 | case4 | case5 => exact List.suffix_rfl
  | case3 c rest _ digit ds left run ih =>
    rw [run] at ih
    exact suffix_cons ih c

theorem digitRun_marked {p : Char → Bool} (h : Digits p) (a : List Char) :
    digitRun p (marked s a) = Prod.map id (marked s) (digitRun p a) := by
  fun_induction digitRun p a with
  | case1 d rest digit ds left run ih => simp_all [digitRun]
  | case2 d rest other => simp_all [digitRun]
  | case3 c rest _ digit ds left run ih =>
    have proper : c ≠ '_' := fun same => by simp [same, h.underscore] at digit
    simp_all [digitRun]
  | case4 c rest single other =>
    rcases rest with _ | ⟨d, rest⟩
    · by_cases same : c = '_'
      · simp [digitRun, same, h.mark]
      · simp [digitRun, same, other]
    · have proper : c ≠ '_' := fun same => single d rest same rfl
      simp [digitRun, proper, other]
  | case5 => simp [digitRun, h.mark]

theorem digits?_stops {p : Char → Bool} (h : Digits p) : Stops (digits? p) where
  suffix {cs x rest} made := by
    rcases cs with _ | ⟨c, cs⟩
    · cases made
    · simp only [digits?, Option.ite_none_right_eq_some, Option.some.injEq] at made
      simpa [made.2] using digitRun_suffix p (c :: cs)
  stable a s := by
    rcases a with _ | ⟨c, a⟩
    · simp [digits?, h.mark]
    · cases digit : p c with
      | false => simp [digits?, digit]
      | true => simpa [digits?, digit] using digitRun_marked s h (c :: a)

theorem sign_suffix (cs : List Char) : (sign cs).2 <:+ cs := by
  unfold sign
  split
  · exact List.suffix_cons ..
  · exact List.suffix_cons ..
  · exact List.suffix_rfl

theorem sign_marked (a : List Char) : sign (marked s a) = Prod.map id (marked s) (sign a) := by
  rcases a with _ | ⟨c, a⟩
  · rfl
  · by_cases minus : c = '-'
    · subst minus; rfl
    · by_cases plus : c = '+'
      · subst plus; rfl
      · simp [sign, minus, plus]

/-- A reader of what a sign may stand before. -/
theorem Stops.signed {read : Bool → List Char → Option (α × List Char)}
    (each : ∀ negative, Stops (read negative)) : Stops fun cs => read (sign cs).1 (sign cs).2 where
  suffix {cs _ _} made := ((each _).suffix made).trans (sign_suffix cs)
  stable a s := by
    simp only [sign_marked]
    exact (each _).stable _ s

theorem wholeDigits?_of_not_zero {cs : List Char} (h : ¬['0'] <+: cs) :
    wholeDigits? cs = digits? isDigit cs := by
  unfold wholeDigits?
  split
  · exact absurd (by simp) h
  · rfl

theorem wholeDigits?_stops : Stops wholeDigits? where
  suffix {cs x rest} made := by
    by_cases zero : ['0'] <+: cs
    · obtain ⟨cs, rfl⟩ := zero
      cases made
      exact List.suffix_cons ..
    · rw [wholeDigits?_of_not_zero zero] at made
      exact (digits?_stops isDigit_digits).suffix made
  stable a s := by
    by_cases zero : ['0'] <+: a
    · obtain ⟨a, rfl⟩ := zero
      rfl
    · rw [wholeDigits?_of_not_zero zero, wholeDigits?_of_not_zero,
        (digits?_stops isDigit_digits).stable a s]
      rwa [prefix_marked_iff s (by decide)]

/-! ### Integers -/

/-- Digits that are taken for a value. -/
theorem measured_stops {p : Char → Bool} (h : Digits p) (take : List Char → Option α) :
    Stops fun cs => digits? p cs >>= fun r => take r.1 >>= fun v => pure (v, r.2) :=
  (digits?_stops h).bind fun ds => .answer (take ds)

theorem radixInteger?_stops (base : Nat) : Stops (radixInteger? base) :=
  measured_stops ⟨by simp [hexValue?], by simp [hexValue?]⟩ fun ds =>
    boundedInteger? (digitsValue base ds)

/-- An integer to the base ten. -/
def plainInteger? (negative : Bool) (cs : List Char) : Option (Value × List Char) :=
  wholeDigits? cs >>= fun r =>
    boundedInteger? (if negative then -(digitsValue 10 r.1 : Int) else digitsValue 10 r.1) >>= fun v =>
      pure (v, r.2)

theorem plainInteger?_stops (negative : Bool) : Stops (plainInteger? negative) :=
  wholeDigits?_stops.bind fun ds => .answer (boundedInteger?
    (if negative then -(digitsValue 10 ds : Int) else digitsValue 10 ds))

theorem integer?_of_plain {cs : List Char} (plain : ∀ base ∈ ['x', 'o', 'b'], ¬['0', base] <+: cs) :
    integer? cs = plainInteger? (sign cs).1 (sign cs).2 := by
  unfold integer?
  split
  · exact absurd (by simp) (plain 'x' (by simp))
  · exact absurd (by simp) (plain 'o' (by simp))
  · exact absurd (by simp) (plain 'b' (by simp))
  · rfl

/-- An integer is written to a base of its own or to the base ten. -/
theorem base_or_plain (cs : List Char) :
    (∃ base rest, cs = '0' :: base :: rest ∧ (base = 'x' ∨ base = 'o' ∨ base = 'b')) ∨
      ∀ base ∈ ['x', 'o', 'b'], ¬['0', base] <+: cs := by
  by_cases based : ∃ base ∈ ['x', 'o', 'b'], ['0', base] <+: cs
  · obtain ⟨base, member, rest, rfl⟩ := based
    exact .inl ⟨base, rest, rfl, by simpa using member⟩
  · exact .inr fun base member starts => based ⟨base, member, starts⟩

theorem integer?_stops : Stops integer? where
  suffix {cs x rest} made := by
    rcases base_or_plain cs with ⟨base, cs, rfl, rfl | rfl | rfl⟩ | plain
    · exact suffix_cons (suffix_cons ((radixInteger?_stops 16).suffix made) _) _
    · exact suffix_cons (suffix_cons ((radixInteger?_stops 8).suffix made) _) _
    · exact suffix_cons (suffix_cons ((radixInteger?_stops 2).suffix made) _) _
    · rw [integer?_of_plain plain] at made
      exact (Stops.signed plainInteger?_stops).suffix made
  stable a s := by
    rcases base_or_plain a with ⟨base, a, rfl, rfl | rfl | rfl⟩ | plain
    · exact (radixInteger?_stops 16).stable a s
    · exact (radixInteger?_stops 8).stable a s
    · exact (radixInteger?_stops 2).stable a s
    · have plain' : ∀ base ∈ ['x', 'o', 'b'], ¬['0', base] <+: marked s a := by
        intro base member
        have quoteless : '"' ∉ ['0', base] := by
          intro quote
          obtain rfl : '"' = base := by simpa using quote
          simp at member
        rw [prefix_marked_iff s quoteless]
        exact plain base member
      rw [integer?_of_plain plain, integer?_of_plain plain']
      exact (Stops.signed plainInteger?_stops).stable a s

/-! ### Floating-point numbers -/

theorem fraction?_stops : Stops fraction? where
  suffix {cs x rest} made := by
    unfold fraction? at made
    split at made
    · exact suffix_cons ((digits?_stops isDigit_digits).suffix made) _
    · cases made
  stable a s := by
    rcases a with _ | ⟨c, a⟩
    · rfl
    · by_cases point : c = '.'
      · subst point; exact (digits?_stops isDigit_digits).stable a s
      · simp [fraction?, point]

/-- The exponent after its letter. -/
theorem magnitude_stops : Stops fun cs => digits? isDigit (sign cs).2 >>= fun r =>
    some (if (sign cs).1 then -(digitsValue 10 r.1 : Int) else digitsValue 10 r.1) >>= fun n =>
      pure (n, r.2) :=
  .signed fun negative => measured_stops isDigit_digits fun ds =>
    some (if negative then -(digitsValue 10 ds : Int) else digitsValue 10 ds)

theorem exponent?_stops : Stops exponent? where
  suffix {cs x rest} made := by
    rcases cs with _ | ⟨c, cs⟩
    · cases made
    · by_cases letter : c = 'e' ∨ c = 'E'
      · rw [exponent?, if_pos letter] at made
        exact suffix_cons (magnitude_stops.suffix made) c
      · simp [exponent?, letter] at made
  stable a s := by
    rcases a with _ | ⟨c, a⟩
    · rfl
    · by_cases letter : c = 'e' ∨ c = 'E'
      · rw [marked_cons, exponent?, exponent?, if_pos letter, if_pos letter]
        exact magnitude_stops.stable a s
      · simp [exponent?, letter]

/-- What a number has behind its whole digits: a fraction, or an exponent that is still to be read. -/
def tail? (cs : List Char) : Option (List Char × List Char) :=
  match fraction? cs, exponent? cs with
  | some (fraction, rest), _ => some (fraction, rest)
  | none, some _ => some ([], cs)
  | none, none => none

theorem tail?_stops : Stops tail? where
  suffix {cs x rest} made := by
    unfold tail? at made
    split at made
    · rename_i read
      cases made
      exact fraction?_stops.suffix read
    · cases made; exact List.suffix_rfl
    · cases made
  stable a s := by
    rw [tail?, fraction?_stops.stable a s, exponent?_stops.stable a s, tail?]
    cases fraction? a <;> cases exponent? a <;> rfl

/-- The exponent, which is zero where there is none. -/
theorem exponent_stops : Stops fun cs => some ((exponent? cs).getD (0, cs)) where
  suffix {cs x rest} made := by
    cases read : exponent? cs with
    | none => simp only [read] at made; cases made; exact List.suffix_rfl
    | some r => simp only [read] at made; cases made; exact exponent?_stops.suffix read
  stable a s := by
    simp only [exponent?_stops.stable a s]
    cases exponent? a <;> rfl

/-- A number with a fraction or an exponent, after its sign. -/
def unsignedDecimal? (negative : Bool) (cs : List Char) : Option (Value × List Char) :=
  wholeDigits? cs >>= fun whole => tail? whole.2 >>= fun fraction =>
    some ((exponent? fraction.2).getD (0, fraction.2)) >>= fun exponent =>
      (nearest? negative (digitsValue 10 (whole.1 ++ fraction.1))
        (exponent.1 - fraction.1.length)).map Value.float >>= fun v => pure (v, exponent.2)

theorem unsignedDecimal?_stops (negative : Bool) : Stops (unsignedDecimal? negative) :=
  wholeDigits?_stops.bind fun whole => tail?_stops.bind fun fraction =>
    exponent_stops.bind fun exponent => .answer ((nearest? negative
      (digitsValue 10 (whole ++ fraction)) (exponent - fraction.length)).map Value.float)

theorem decimal?_eq (cs : List Char) : decimal? cs = unsignedDecimal? (sign cs).1 (sign cs).2 := by
  simp only [decimal?, unsignedDecimal?, tail?]
  cases wholeDigits? (sign cs).2 with
  | none => rfl
  | some whole =>
    simp only [Option.bind_eq_bind, Option.bind_some]
    cases fraction? whole.2 <;> cases exponent : exponent? whole.2 <;>
      simp only [exponent, Option.bind_some, Option.bind_none, Option.getD_some]
    all_goals
      rw [Option.bind_map]
      rfl

theorem decimal?_stops : Stops decimal? := by
  rw [funext decimal?_eq]
  exact .signed unsignedDecimal?_stops

/-- An infinite number or one that is no number, after its sign. -/
def unsignedSpecial? (negative : Bool) (cs : List Char) : Option (Value × List Char) :=
  match cs with
  | 'i' :: 'n' :: 'f' :: rest => some (.float (.infinite negative), rest)
  | 'n' :: 'a' :: 'n' :: rest => some (.float .nan, rest)
  | _ => none

theorem unsignedSpecial?_eq_none {negative : Bool} {cs : List Char} (inf : ¬"inf".toList <+: cs)
    (nan : ¬"nan".toList <+: cs) : unsignedSpecial? negative cs = none := by
  unfold unsignedSpecial?
  split
  · exact absurd (by simp) inf
  · exact absurd (by simp) nan
  · rfl

theorem unsignedSpecial?_stops (negative : Bool) : Stops (unsignedSpecial? negative) where
  suffix {cs x rest} made := by
    unfold unsignedSpecial? at made
    split at made <;> cases made <;> exact ⟨[_, _, _], rfl⟩
  stable a s := by
    by_cases inf : "inf".toList <+: a
    · obtain ⟨rest, rfl⟩ := inf
      rfl
    · by_cases nan : "nan".toList <+: a
      · obtain ⟨rest, rfl⟩ := nan
        rfl
      · rw [unsignedSpecial?_eq_none inf nan, unsignedSpecial?_eq_none]
        · rfl
        · rwa [prefix_marked_iff s (by decide)]
        · rwa [prefix_marked_iff s (by decide)]

theorem special?_stops : Stops special? := .signed unsignedSpecial?_stops

/-! ### Dates and times -/

theorem fixedDigits?_stops (count low high : Nat) : Stops (fixedDigits? count low high) where
  suffix {cs x rest} made := by
    simp only [fixedDigits?, Option.ite_none_right_eq_some, Option.some.injEq, Prod.mk.injEq] at made
    obtain ⟨-, -, rfl⟩ := made
    exact List.drop_suffix ..
  stable a s := by
    by_cases enough : count ≤ a.length
    · simp only [fixedDigits?, marked, List.take_append_of_le_length enough,
        List.drop_append_of_le_length enough]
      split <;> rfl
    · have missing : ¬((marked s a).take count).all isDigit := by
        obtain ⟨more, rfl⟩ : ∃ more, count = a.length + (more + 1) :=
          ⟨count - a.length - 1, by omega⟩
        simp [marked, List.take_append, show isDigit '"' = false by decide]
      have short : (a.take count).length ≠ count := by rw [List.length_take]; omega
      simp only [fixedDigits?]
      rw [if_neg fun h => missing h.2.1, if_neg fun h => short h.1]
      rfl

theorem after?_eq_some {c : Char} {cs rest : List Char} (made : after? c cs = some rest) :
    cs = c :: rest := by
  rcases cs with _ | ⟨d, cs⟩
  · cases made
  · simp only [after?, Option.ite_none_right_eq_some, Option.some.injEq] at made
    rw [made.1, made.2]

theorem after?_passes {c : Char} (other : c ≠ '"') : Passes (after? c) where
  suffix made := by
    rw [after?_eq_some made]
    exact List.suffix_cons ..
  stable a s := by
    rcases a with _ | ⟨d, a⟩
    · simp [after?, other.symm]
    · by_cases same : d = c <;> simp [after?, same]

theorem dash_passes : Passes (after? '-') := after?_passes (by decide)

theorem colon_passes : Passes (after? ':') := after?_passes (by decide)

theorem date?_passes : Passes date? :=
  (fixedDigits?_stops 4 0 9999).pass fun year => dash_passes.bind <|
    (fixedDigits?_stops 2 1 12).pass fun month => dash_passes.bind <|
      (fixedDigits?_stops 2 1 (daysOf year month)).pass fun _ => passes_pure

/-- The fraction of a second, if there is one. -/
theorem secondFraction_passes : Passes fun cs =>
    match cs with
    | '.' :: rest => if rest.head?.any isDigit then pure (rest.dropWhile isDigit) else pure cs
    | _ => pure cs where
  suffix {cs rest} made := by
    split at made
    · split at made <;> cases made
      · exact suffix_cons (List.dropWhile_suffix _) _
      · exact List.suffix_rfl
    · cases made; exact List.suffix_rfl
  stable a s := by
    have quote : isDigit '"' = false := by decide
    rcases a with _ | ⟨c, _ | ⟨d, a⟩⟩
    · rfl
    · by_cases point : c = '.'
      · subst point; simp [quote]
      · simp [point]
    · by_cases point : c = '.'
      · subst point
        cases digit : isDigit d with
        | false => simp [digit]
        | true => simp [digit, dropWhile_marked s quote]
      · simp [point]

theorem time?_passes : Passes time? :=
  (fixedDigits?_stops 2 0 23).pass fun _ => colon_passes.bind <|
    (fixedDigits?_stops 2 0 59).pass fun _ => colon_passes.bind <|
      (fixedDigits?_stops 2 0 60).pass fun _ => secondFraction_passes

/-- The hours and minutes of an offset. -/
theorem offsetClock_passes : Passes fun cs => fixedDigits? 2 0 23 cs >>= fun hours =>
    after? ':' hours.2 >>= fun rest => fixedDigits? 2 0 59 rest >>= fun minutes => some minutes.2 :=
  (fixedDigits?_stops 2 0 23).pass fun _ => colon_passes.bind <|
    (fixedDigits?_stops 2 0 59).pass fun _ => passes_pure

theorem offset?_passes : Passes offset? where
  suffix {cs rest} made := by
    unfold offset? at made
    split at made
    · cases made
    · split at made
      · cases made; exact List.suffix_cons ..
      · split at made
        · exact suffix_cons (offsetClock_passes.suffix made) _
        · cases made
  stable a s := by
    rcases a with _ | ⟨c, a⟩
    · simp [offset?]
    · simp only [marked_cons, offset?]
      split
      · rfl
      · split
        · exact offsetClock_passes.stable a s
        · rfl

/-- What a reader leaves that may leave everything. -/
theorem Passes.getD {skip : List Char → Option (List Char)} (h : Passes skip) :
    Passes fun cs => some ((skip cs).getD cs) where
  suffix {cs rest} made := by
    cases read : skip cs with
    | none => simp only [read] at made; cases made; exact List.suffix_rfl
    | some left => simp only [read] at made; cases made; exact h.suffix read
  stable a s := by
    simp only [h.stable a s]
    cases skip a <;> rfl

theorem timeAfterDate?_passes : Passes timeAfterDate? where
  suffix {cs rest} made := by
    unfold timeAfterDate? at made
    split at made
    · cases made
    · split at made
      · rw [Option.map_eq_bind] at made
        exact suffix_cons ((time?_passes.bind offset?_passes.getD).suffix made) _
      · cases made
  stable a s := by
    rcases a with _ | ⟨c, a⟩
    · simp [timeAfterDate?]
    · simp only [marked_cons, timeAfterDate?]
      split
      · rw [time?_passes.stable a s]
        cases time? a with
        | none => rfl
        | some rest => simpa using offset?_passes.getD.stable rest s
      · rfl

theorem moment?_stops : Stops moment? where
  suffix {cs x rest} made := by
    unfold moment? at made
    split at made
    · rename_i read
      cases made
      exact (timeAfterDate?_passes.getD.suffix rfl).trans (date?_passes.suffix read)
    · obtain ⟨left, read, same⟩ := Option.map_eq_some_iff.mp made
      cases same
      exact time?_passes.suffix read
  stable a s := by
    simp only [moment?, date?_passes.stable a s, time?_passes.stable a s]
    cases date? a with
    | none => cases time? a <;> rfl
    | some rest =>
      simp only [Option.map_some, timeAfterDate?_passes.stable rest s]
      cases timeAfterDate? rest <;> rfl

/-! ### Whatever starts with a digit, a sign or a letter -/

/-- The first of two readers that reads. -/
theorem Stops.or {one two : List Char → Option (α × List Char)} (first : Stops one)
    (second : Stops two) : Stops fun cs => (one cs).or (two cs) where
  suffix made := by
    rcases Option.or_eq_some_iff.mp made with read | ⟨-, read⟩
    · exact first.suffix read
    · exact second.suffix read
  stable a s := by
    simp only [first.stable a s, second.stable a s]
    cases one a <;> rfl

theorem number?_stops : Stops number? :=
  (moment?_stops.or decimal?_stops).or (special?_stops.or integer?_stops)

theorem word?_of_not_boolean {cs : List Char} (yes : ¬"true".toList <+: cs)
    (no : ¬"false".toList <+: cs) : word? cs = special? cs := by
  unfold word?
  split
  · exact absurd (by simp) yes
  · exact absurd (by simp) no
  · rfl

theorem word?_stops : Stops word? where
  suffix {cs x rest} made := by
    unfold word? at made
    split at made
    · cases made; exact ⟨"true".toList, rfl⟩
    · cases made; exact ⟨"false".toList, rfl⟩
    · exact special?_stops.suffix made
  stable a s := by
    by_cases yes : "true".toList <+: a
    · obtain ⟨rest, rfl⟩ := yes
      rfl
    · by_cases no : "false".toList <+: a
      · obtain ⟨rest, rfl⟩ := no
        rfl
      · rw [word?_of_not_boolean yes no, word?_of_not_boolean, special?_stops.stable a s]
        · rwa [prefix_marked_iff s (by decide)]
        · rwa [prefix_marked_iff s (by decide)]

end EventPipeline.Toml
