import EventPipeline.Json.Shape
import EventPipeline.Proofs.Json.Canonical
import EventPipeline.Proofs.Json.Numbers
import EventPipeline.Proofs.Json.Strings

/-! # Written documents are read back

A reader that is given a canonical document in compact form makes that document and leaves what
follows it, as long as nothing follows that would prolong a number (`value_chars`). The insides of
arrays and objects are followed item by item: `elements_chars` for any reader of items, and
`foldMembers_chars` for any reader of members, a `Folds` naming the states it goes through.
-/

namespace EventPipeline.Json

/-! ### What written texts start with -/

theorem skipGap_cons {b : UInt8} (token : isGap b = false) (bs : Octets) :
    skipGap (b :: bs) = b :: bs := by
  rw [skipGap, List.dropWhile_cons_of_neg (by simp [token])]

/-- The characters start with one that opens a document. -/
def Opens (written : List Char) : Prop :=
  ∃ c cs, written = c :: cs ∧ c.toNat < 0x80 ∧ isGap (octet c) = false ∧ octet c ≠ octet ']'

theorem Opens.cons {c : Char} (ascii : c.toNat < 0x80) (token : isGap (octet c) = false)
    (other : octet c ≠ octet ']') (cs : List Char) : Opens (c :: cs) :=
  ⟨c, cs, rfl, ascii, token, other⟩

theorem endsNumber_cons {b : UInt8} (other : isDigit b = false)
    (mark : b ≠ octet '.' ∧ b ≠ octet 'e' ∧ b ≠ octet 'E') (rest : Octets) :
    EndsNumber (b :: rest) := by
  constructor
  · rintro _ ⟨⟩
    exact other
  · rintro _ ⟨⟩
    exact mark

/-! ### Documents that are neither array nor object -/

/-- The characters are read as the given document by a reader that looks at the first of them. -/
structure ReadsScalar (c : Char) (cs : List Char) (v : Value) : Prop where
  ascii : c.toNat < 0x80
  token : isGap (octet c) = false
  noBracket : octet c ≠ octet '[' ∧ octet c ≠ octet ']' ∧ octet c ≠ octet '\x7b'
  reads : ∀ rest, EndsNumber rest → scalar (octet c) (encodeChars cs ++ rest) = .ok (v, rest)

theorem word_chars {expected : List Char} (ascii : ∀ c ∈ expected, c.toNat < 0x80) (v : Value)
    (rest : Octets) : word expected v (encodeChars expected ++ rest) = .ok (v, rest) := by
  induction expected with
  | nil => rw [encodeChars_nil, List.nil_append, word]
  | cons c cs ih =>
    rw [encodeChars_cons_ascii (ascii c (List.mem_cons_self ..)), List.cons_append, word, if_pos rfl]
    exact ih fun d member => ascii d (List.mem_cons_of_mem _ member)

theorem readsScalar_string (s : String) :
    ReadsScalar '"' (s.toList.flatMap escapedChar ++ ['"']) (.string s) := by
  refine ⟨by decide, by decide, by decide, ?_⟩
  intro rest _
  have quote : encodeChars ['"'] = [octet '"'] := rfl
  rw [encodeChars_append, quote, List.append_assoc, List.singleton_append]
  change (string _).map _ = _
  rw [string_stringChars]
  rfl

/-- A digit opens a number and nothing else. -/
theorem scalar_digit {b : UInt8} (digit : isDigit b = true) (bs : Octets) :
    scalar b bs = (unsignedNumber false (b :: bs)).map fun (n, rest) => (.number n, rest) := by
  have other {c : Char} (noDigit : isDigit (octet c) = false) : b ≠ octet c := by
    rintro rfl
    rw [noDigit] at digit
    cases digit
  rw [scalar, if_neg (other (by decide)), if_neg (other (by decide)), if_neg (other (by decide)),
    if_neg (other (by decide)), if_pos digit]

theorem readsScalar_number (n : Number) : ∃ c cs, n.chars = c :: cs ∧
    ReadsScalar c cs (.number n) := by
  obtain ⟨negative, c, cs, written, digit, reads⟩ := number_chars n
  cases negative with
  | true =>
    refine ⟨'-', c :: cs, by simpa using written, by decide, by decide, by decide, ?_⟩
    intro rest ends
    change (unsignedNumber true _).map _ = _
    rw [reads rest ends]
    rfl
  | false =>
    have isOctet := isDigit_octet digit
    have other {d : Char} (noDigit : isDigit (octet d) = false) : octet c ≠ octet d := by
      intro same
      rw [same, noDigit] at isOctet
      cases isOctet
    have token : isGap (octet c) = false := by
      simp only [isGap, Bool.or_eq_false_iff, beq_eq_false_iff_ne]
      exact ⟨⟨⟨other (d := ' ') (by decide), other (d := '\n') (by decide)⟩,
        other (d := '\t') (by decide)⟩, other (d := '\r') (by decide)⟩
    refine ⟨c, cs, by simpa using written, ascii_of_isDigit digit, token,
      ⟨other (by decide), other (by decide), other (by decide)⟩, ?_⟩
    intro rest ends
    rw [scalar_digit isOctet, ← List.cons_append, ← encodeChars_cons_ascii (ascii_of_isDigit digit),
      reads rest ends]
    rfl

theorem readsScalar_boolean (b : Bool) : ∃ c cs, (Value.boolean b).chars = c :: cs ∧
    ReadsScalar c cs (.boolean b) := by
  cases b with
  | true =>
    exact ⟨'t', ['r', 'u', 'e'], rfl, by decide, by decide, by decide, fun rest _ =>
      word_chars (by simp) (.boolean true) rest⟩
  | false =>
    exact ⟨'f', ['a', 'l', 's', 'e'], rfl, by decide, by decide, by decide, fun rest _ =>
      word_chars (by simp) (.boolean false) rest⟩

/-- The document is neither array nor object. -/
def Value.IsScalar : Value → Prop
  | .array _ => False
  | .object _ => False
  | _ => True

theorem readsScalar_chars {v : Value} (scalar : v.IsScalar) :
    ∃ c cs, v.chars = c :: cs ∧ ReadsScalar c cs v := by
  cases v with
  | null =>
    exact ⟨'n', ['u', 'l', 'l'], rfl, by decide, by decide, by decide, fun rest _ =>
      word_chars (by simp) .null rest⟩
  | boolean b => exact readsScalar_boolean b
  | number n => exact readsScalar_number n
  | string s => exact ⟨'"', _, rfl, readsScalar_string s⟩
  | array items => exact scalar.elim
  | object members => exact scalar.elim

/-- A written scalar is read back, if what follows cannot belong to a number. -/
theorem value_scalar {v : Value} (scalar : v.IsScalar) (depth : Nat) {rest : Octets}
    (ends : EndsNumber rest) : value depth (encodeChars v.chars ++ rest) = .ok (v, rest) := by
  obtain ⟨c, cs, written, reads⟩ := readsScalar_chars scalar
  rw [written, encodeChars_cons_ascii reads.ascii, List.cons_append]
  cases depth <;>
    simp only [value, skipGap_cons reads.token, if_neg reads.noBracket.1,
      if_neg reads.noBracket.2.2, reads.reads rest ends]

/-- A written scalar is taken by a reader of the kind of scalars it is. -/
theorem scalarAt_chars {α : Type} {v : Value} (scalar : v.IsScalar)
    {accept : Value → Except Mismatch α} {a : α} (accepts : accept v = .ok a) (expected : String)
    {rest : Octets} (ends : EndsNumber rest) :
    scalarAt expected accept (encodeChars v.chars ++ rest) = .ok (a, rest) := by
  obtain ⟨c, cs, written, reads⟩ := readsScalar_chars scalar
  have noBracket : ¬ (octet c = octet '[' ∨ octet c = octet '\x7b') :=
    not_or.mpr ⟨reads.noBracket.1, reads.noBracket.2.2⟩
  rw [written, encodeChars_cons_ascii reads.ascii, List.cons_append]
  simp only [scalarAt, skipGap_cons reads.token, if_neg noBracket, reads.reads rest ends, accepts]

/-! ### Arrays -/

/-- The items of an array after the first, each behind its comma. -/
def itemsTail (vs : List Value) : List Char := vs.flatMap fun v => ',' :: v.chars

theorem itemsChars_cons (v : Value) (vs : List Value) :
    itemsChars (v :: vs) = v.chars ++ itemsTail vs := by
  induction vs generalizing v with
  | nil => simp [itemsChars, itemsTail]
  | cons w vs ih =>
    rw [itemsChars, ih]
    rfl

theorem nextElement_first {written : List Char} (opens : Opens written) (rest : Octets) :
    nextElement true (encodeChars written ++ rest) = .ok (some (encodeChars written ++ rest)) := by
  obtain ⟨c, cs, rfl, ascii, token, other⟩ := opens
  rw [encodeChars_cons_ascii ascii, List.cons_append]
  simp only [nextElement, skipGap_cons token, if_neg other, if_true]

theorem nextElement_comma {written : List Char} (opens : Opens written) (rest : Octets) :
    nextElement false (octet ',' :: (encodeChars written ++ rest)) =
      .ok (some (encodeChars written ++ rest)) := by
  obtain ⟨c, cs, rfl, ascii, token, other⟩ := opens
  have comma : octet ',' ≠ octet ']' := by decide
  have comma' : isGap (octet ',') = false := by decide
  rw [encodeChars_cons_ascii ascii, List.cons_append]
  simp [nextElement, skipGap_cons comma', if_neg comma, skipGap_cons token, if_neg other]

theorem elements_close {α : Type} (item : Octets → Except Error (α × Octets)) (fuel : Nat)
    (first : Bool) (rest : Octets) :
    elements item (fuel + 1) first (octet ']' :: rest) = .ok ([], rest) := by
  have bracket : isGap (octet ']') = false := by decide
  have closes : nextElement first (octet ']' :: rest) = .ok none := by
    simp only [nextElement, skipGap_cons bracket, if_true]
  simp only [elements, closes, bind, Except.bind, skipGap_cons bracket]
  rfl

theorem endsNumber_itemsTail (vs : List Value) (rest : Octets) :
    EndsNumber (encodeChars (itemsTail vs) ++ octet ']' :: rest) := by
  cases vs with
  | nil => exact endsNumber_cons (by decide) (by decide) rest
  | cons v vs =>
    rw [itemsTail, List.flatMap_cons, List.cons_append, encodeChars_cons_ascii (by decide)]
    exact endsNumber_cons (by decide) (by decide) _

/-- A reader makes the given document of what is written for it, up to what ends a number. -/
def Rereads (read : Octets → Except Error (Value × Octets)) (v : Value) : Prop :=
  Opens v.chars ∧ ∀ rest, EndsNumber rest → read (encodeChars v.chars ++ rest) = .ok (v, rest)

theorem elements_itemsTail {item : Octets → Except Error (Value × Octets)} {vs : List Value}
    (each : ∀ v ∈ vs, Rereads item v) {fuel : Nat} (enough : vs.length < fuel) (rest : Octets) :
    elements item fuel false (encodeChars (itemsTail vs) ++ octet ']' :: rest) = .ok (vs, rest) := by
  induction vs generalizing fuel with
  | nil =>
    obtain ⟨fuel, rfl⟩ := Nat.exists_eq_add_one_of_ne_zero (Nat.ne_zero_of_lt enough)
    exact elements_close item fuel false rest
  | cons v vs ih =>
    obtain ⟨fuel, rfl⟩ := Nat.exists_eq_add_one_of_ne_zero (Nat.ne_zero_of_lt enough)
    obtain ⟨opens, reads⟩ := each v (List.mem_cons_self ..)
    have tail := ih (fun w member => each w (List.mem_cons_of_mem _ member))
      (Nat.lt_of_succ_lt_succ enough)
    have written : encodeChars (itemsTail (v :: vs)) ++ octet ']' :: rest =
        octet ',' :: (encodeChars v.chars ++
          (encodeChars (itemsTail vs) ++ octet ']' :: rest)) := by
      rw [itemsTail, List.flatMap_cons, List.cons_append, encodeChars_cons_ascii (by decide)]
      simp [itemsTail]
    rw [written, elements]
    simp only [nextElement_comma opens, bind, Except.bind, reads _ (endsNumber_itemsTail vs rest),
      tail]
    rfl

theorem length_le_encodeChars_itemsTail (vs : List Value) :
    vs.length ≤ (encodeChars (itemsTail vs)).length := by
  induction vs with
  | nil => exact Nat.zero_le _
  | cons v vs ih =>
    rw [itemsTail, List.flatMap_cons, List.cons_append, encodeChars_cons_ascii (by decide),
      encodeChars_append]
    simp only [List.length_cons, List.length_append]
    exact Nat.succ_le_succ (Nat.le_trans ih (Nat.le_add_left _ _))

/-- The items of a written array are read back by a reader that makes each of them again. -/
theorem elements_chars {item : Octets → Except Error (Value × Octets)} {vs : List Value}
    (each : ∀ v ∈ vs, Rereads item v) {fuel : Nat} (rest : Octets)
    (enough : (encodeChars (itemsChars vs)).length < fuel) :
    elements item fuel true (encodeChars (itemsChars vs) ++ octet ']' :: rest) =
      .ok (vs, rest) := by
  obtain ⟨fuel, rfl⟩ := Nat.exists_eq_add_one_of_ne_zero (Nat.ne_zero_of_lt enough)
  cases vs with
  | nil => exact elements_close item fuel true rest
  | cons v vs =>
    obtain ⟨opens, reads⟩ := each v (List.mem_cons_self ..)
    have start : 0 < (encodeChars v.chars).length := by
      obtain ⟨c, cs, written, ascii, -⟩ := opens
      rw [written, encodeChars_cons_ascii ascii, List.length_cons]
      exact Nat.succ_pos _
    rw [itemsChars_cons, encodeChars_append] at enough ⊢
    rw [List.length_append] at enough
    have items := length_le_encodeChars_itemsTail vs
    have tail := elements_itemsTail (fun w member => each w (List.mem_cons_of_mem _ member))
      (show vs.length < fuel by omega) rest
    rw [List.append_assoc, elements]
    simp only [nextElement_first opens, bind, Except.bind, reads _ (endsNumber_itemsTail vs rest),
      tail]
    rfl

/-! ### Objects -/

/-- A written member of an object. -/
def memberChars (key : String) (written : List Char) : List Char :=
  stringChars key ++ ':' :: written

/-- The members of an object after the first, each behind its comma. -/
def membersTail (ms : List (String × List Char)) : List Char :=
  ms.flatMap fun (key, written) => ',' :: memberChars key written

/-- The written members of an object, divided by commas. -/
def joinedMembers : List (String × List Char) → List Char
  | [] => []
  | (key, written) :: ms => memberChars key written ++ membersTail ms

theorem membersChars_eq (ms : List (String × Value)) :
    membersChars ms = joinedMembers (ms.map fun (key, v) => (key, v.chars)) := by
  induction ms with
  | nil => rfl
  | cons m ms ih =>
    cases ms with
    | nil => simp [membersChars, joinedMembers, memberChars, membersTail]
    | cons next ms =>
      rw [membersChars, ih]
      simp [joinedMembers, memberChars, membersTail]

theorem intercalate_members (ms : List (String × List Char)) :
    [','].intercalate (ms.map fun (key, written) => stringChars key ++ ':' :: written) =
      joinedMembers ms := by
  induction ms with
  | nil => rfl
  | cons m ms ih =>
    cases ms with
    | nil => simp [joinedMembers, memberChars, membersTail]
    | cons next ms =>
      rw [List.map_cons] at ih
      rw [List.map_cons, List.map_cons, List.intercalate_cons_cons, ih]
      simp [joinedMembers, memberChars, membersTail]

/-- From the state `s`, a reader of members goes through the given written ones to the state `s'`,
whatever stands behind each. -/
inductive Folds {σ : Type} (member : σ → String → Octets → Except Error (σ × Octets)) :
    σ → List (String × List Char) → σ → Prop where
  | done (s : σ) : Folds member s [] s
  | step {s next s' : σ} {key : String} {written : List Char} {ms : List (String × List Char)}
    (takes : ∀ rest, EndsNumber rest →
      member s key (octet ':' :: (encodeChars written ++ rest)) = .ok (next, rest))
    (further : Folds member next ms s') : Folds member s ((key, written) :: ms) s'

theorem Folds.append {σ : Type} {member : σ → String → Octets → Except Error (σ × Octets)}
    {s middle s' : σ} {ms ns : List (String × List Char)} (first : Folds member s ms middle)
    (second : Folds member middle ns s') : Folds member s (ms ++ ns) s' := by
  induction first with
  | done => exact second
  | step takes _ ih => exact .step takes (ih second)

theorem foldMembers_close {σ : Type} (member : σ → String → Octets → Except Error (σ × Octets))
    (fuel : Nat) (first : Bool) (s : σ) (rest : Octets) :
    foldMembers member (fuel + 1) first s (octet '\x7d' :: rest) = .ok (s, rest) := by
  have brace : isGap (octet '\x7d') = false := by decide
  have closes : nextKey first (octet '\x7d' :: rest) = .ok none := by
    simp only [nextKey, skipGap_cons brace, if_true]
  simp only [foldMembers, closes, bind, Except.bind, skipGap_cons brace]
  rfl

theorem nextKey_first (key : String) (rest : Octets) :
    nextKey true (encodeChars (stringChars key) ++ rest) =
      .ok (some (encodeChars (key.toList.flatMap escapedChar) ++ octet '"' :: rest)) := by
  have quote : isGap (octet '"') = false := by decide
  have other : octet '"' ≠ octet '\x7d' := by decide
  rw [encodeChars_stringChars]
  simp only [nextKey, skipGap_cons quote, if_neg other, if_true]

theorem nextKey_comma (key : String) (rest : Octets) :
    nextKey false (octet ',' :: (encodeChars (stringChars key) ++ rest)) =
      .ok (some (encodeChars (key.toList.flatMap escapedChar) ++ octet '"' :: rest)) := by
  have comma : isGap (octet ',') = false := by decide
  have other : octet ',' ≠ octet '\x7d' := by decide
  have quote : isGap (octet '"') = false := by decide
  rw [encodeChars_stringChars]
  simp [nextKey, skipGap_cons comma, if_neg other, skipGap_cons quote]

theorem encodeChars_memberChars (key : String) (written : List Char) (rest : Octets) :
    encodeChars (memberChars key written) ++ rest =
      encodeChars (stringChars key) ++ octet ':' :: (encodeChars written ++ rest) := by
  rw [memberChars, encodeChars_append, encodeChars_cons_ascii (by decide), List.append_assoc,
    List.cons_append]

theorem encodeChars_membersTail (key : String) (written : List Char)
    (ms : List (String × List Char)) (rest : Octets) :
    encodeChars (membersTail ((key, written) :: ms)) ++ rest =
      octet ',' :: (encodeChars (stringChars key) ++ octet ':' :: (encodeChars written ++
        (encodeChars (membersTail ms) ++ rest))) := by
  rw [membersTail, List.flatMap_cons, List.cons_append, encodeChars_cons_ascii (by decide),
    encodeChars_append, List.cons_append, List.append_assoc, encodeChars_memberChars]
  rfl

theorem endsNumber_membersTail (ms : List (String × List Char)) (rest : Octets) :
    EndsNumber (encodeChars (membersTail ms) ++ octet '\x7d' :: rest) := by
  cases ms with
  | nil => exact endsNumber_cons (by decide) (by decide) rest
  | cons m ms =>
    rw [encodeChars_membersTail]
    exact endsNumber_cons (by decide) (by decide) _

theorem foldMembers_membersTail {σ : Type}
    {member : σ → String → Octets → Except Error (σ × Octets)} {s s' : σ}
    {ms : List (String × List Char)} (folds : Folds member s ms s') {fuel : Nat}
    (enough : ms.length < fuel) (rest : Octets) :
    foldMembers member fuel false s (encodeChars (membersTail ms) ++ octet '\x7d' :: rest) =
      .ok (s', rest) := by
  induction folds generalizing fuel with
  | done s =>
    obtain ⟨fuel, rfl⟩ := Nat.exists_eq_add_one_of_ne_zero (Nat.ne_zero_of_lt enough)
    exact foldMembers_close member fuel false s rest
  | step takes _ ih =>
    obtain ⟨fuel, rfl⟩ := Nat.exists_eq_add_one_of_ne_zero (Nat.ne_zero_of_lt enough)
    have tail := ih (Nat.lt_of_succ_lt_succ enough)
    rw [encodeChars_membersTail, foldMembers]
    simp only [nextKey_comma, bind, Except.bind, string_stringChars,
      takes _ (endsNumber_membersTail _ rest), tail]

theorem length_le_encodeChars_membersTail (ms : List (String × List Char)) :
    ms.length ≤ (encodeChars (membersTail ms)).length := by
  induction ms with
  | nil => exact Nat.zero_le _
  | cons m ms ih =>
    have written := encodeChars_membersTail m.1 m.2 ms []
    rw [List.append_nil] at written
    simp only [written, List.length_cons, List.length_append, List.length_nil, Nat.add_zero]
    omega

/-- The members of a written object are read back by a reader that takes each of them. -/
theorem foldMembers_chars {σ : Type} {member : σ → String → Octets → Except Error (σ × Octets)}
    {s s' : σ} {ms : List (String × List Char)} (folds : Folds member s ms s') {fuel : Nat}
    (rest : Octets) (enough : (encodeChars (joinedMembers ms)).length < fuel) :
    foldMembers member fuel true s (encodeChars (joinedMembers ms) ++ octet '\x7d' :: rest) =
      .ok (s', rest) := by
  obtain ⟨fuel, rfl⟩ := Nat.exists_eq_add_one_of_ne_zero (Nat.ne_zero_of_lt enough)
  cases folds with
  | done => exact foldMembers_close member fuel true s rest
  | @step _ _ _ key written ms takes further =>
    rw [joinedMembers, encodeChars_append] at enough ⊢
    have start : 0 < (encodeChars (memberChars key written)).length := by
      have quoted := encodeChars_stringChars key (octet ':' :: (encodeChars written ++ []))
      rw [← encodeChars_memberChars, List.append_nil] at quoted
      rw [quoted, List.length_cons]
      exact Nat.succ_pos _
    have count := length_le_encodeChars_membersTail ms
    rw [List.length_append] at enough
    have tail := foldMembers_membersTail further (show ms.length < fuel by omega) rest
    rw [List.append_assoc, encodeChars_memberChars, foldMembers]
    simp only [nextKey_first, bind, Except.bind, string_stringChars,
      takes _ (endsNumber_membersTail ms rest), tail]

theorem colon_cons (rest : Octets) : colon (octet ':' :: rest) = .ok rest := by
  have mark : isGap (octet ':') = false := by decide
  simp only [colon, skipGap_cons mark, if_true]

/-- The members of a written object are read back by a reader that makes each value again. -/
theorem members_chars {value : Octets → Except Error (Value × Octets)} {ms : List (String × Value)}
    (each : ∀ m ∈ ms, Rereads value m.2) (rest : Octets) :
    members value (encodeChars (membersChars ms) ++ octet '\x7d' :: rest) = .ok (ms, rest) := by
  rw [members, membersChars_eq, @foldMembers_chars _ _ _ (ms.reverse ++ []) _ ?folds _ rest
    (by rw [List.length_append]; omega)]
  case folds =>
    -- the members read so far are any, so that the induction goes through
    generalize ([] : List (String × Value)) = read
    induction ms generalizing read with
    | nil => exact .done read
    | cons m ms ih =>
      obtain ⟨-, reads⟩ := each m (List.mem_cons_self ..)
      have further := ih (fun w member => each w (List.mem_cons_of_mem _ member)) (m :: read)
      rw [List.reverse_cons, List.append_assoc, List.singleton_append]
      refine .step ?_ further
      intro rest ends
      simp only [colon_cons, bind, Except.bind, reads rest ends]
      rfl
  simp [Except.map]

/-! ### Documents -/

theorem opens_chars (v : Value) : Opens v.chars := by
  have opens (scalar : v.IsScalar) : Opens v.chars := by
    obtain ⟨c, cs, written, reads⟩ := readsScalar_chars scalar
    exact ⟨c, cs, written, reads.ascii, reads.token, reads.noBracket.2.1⟩
  cases v with
  | array items => exact .cons (by decide) (by decide) (by decide) _
  | object members => exact .cons (by decide) (by decide) (by decide) _
  | _ => exact opens trivial

/-- A written document is read back, if what follows cannot belong to a number. -/
theorem value_chars {depth : Nat} {v : Value} (canonical : v.Canonical depth) {rest : Octets}
    (ends : EndsNumber rest) :
    value depth (encodeChars v.chars ++ rest) = .ok (v, rest) := by
  induction canonical generalizing rest with
  | null => exact value_scalar (v := .null) trivial _ ends
  | boolean b => exact value_scalar (v := .boolean b) trivial _ ends
  | number n => exact value_scalar (v := .number n) trivial _ ends
  | string s => exact value_scalar (v := .string s) trivial _ ends
  | @array depth items _ ih =>
    have bracket : isGap (octet '[') = false := by decide
    have written : encodeChars (Value.array items).chars ++ rest =
        octet '[' :: (encodeChars (itemsChars items) ++ octet ']' :: rest) := by
      have close : encodeChars [']'] = [octet ']'] := rfl
      rw [Value.chars, List.cons_append, encodeChars_cons_ascii (by decide), encodeChars_append,
        close, List.cons_append, List.append_assoc, List.singleton_append]
    rw [written, value]
    simp only [skipGap_cons bracket, if_true]
    rw [elements_chars (fun v member => ⟨opens_chars v, fun rest ends => ih v member ends⟩) rest
      (by rw [List.length_append]; omega)]
    rfl
  | @object depth ms sorted _ ih =>
    have brace : isGap (octet '\x7b') = false := by decide
    have differ : octet '\x7b' ≠ octet '[' := by decide
    have written : encodeChars (Value.object ms).chars ++ rest =
        octet '\x7b' :: (encodeChars (membersChars ms) ++ octet '\x7d' :: rest) := by
      have close : encodeChars ['\x7d'] = [octet '\x7d'] := rfl
      rw [Value.chars, List.cons_append, encodeChars_cons_ascii (by decide), encodeChars_append,
        close, List.cons_append, List.append_assoc, List.singleton_append]
    rw [written, value]
    simp only [skipGap_cons brace, if_neg differ, if_true]
    rw [members_chars (fun m member => ⟨opens_chars m.2, fun rest ends => ih m member ends⟩) rest]
    simp [Except.map, Value.ofMembers, sortMembers_of_sorted sorted]

/-- A document that was read is read back from its compact form. -/
theorem value_chars_of_value {depth : Nat} {bs : Octets} {v : Value} {left : Octets}
    (made : value depth bs = .ok (v, left)) {rest : Octets} (ends : EndsNumber rest) :
    value depth (encodeChars v.chars ++ rest) = .ok (v, rest) :=
  value_chars (canonical_of_value made) ends

end EventPipeline.Json
