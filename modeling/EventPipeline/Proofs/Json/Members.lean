import EventPipeline.Proofs.Json.RoundTrip

/-! # Objects by their members

A text that is an object lists its members, with repeated keys, in an order of its own; the document that
is read from it keeps of each key the last value, in increasing order of the keys. `Lists` is the relation
between a text and its members, and `read_object_iff` says what document is made of them. Two readers that
match member by member match over a whole object (`foldMembers_matched`), and a reader of scalars makes of
a text what the reader of documents makes of it, taken for the kind that is asked for
(`scalarAt_eq_ok_iff`).
-/

namespace EventPipeline.Json

/-! ### Values by key -/

/-- The values that stand under a key, in the order of the members. -/
def valuesOf (key : String) (ms : List (String × Value)) : List Value :=
  (ms.filter fun m => m.1 = key).map Prod.snd

theorem valuesOf_concat (key : String) (ms : List (String × Value)) (m : String × Value) :
    valuesOf key (ms ++ [m]) = valuesOf key ms ++ if m.1 = key then [m.2] else [] := by
  rw [valuesOf, List.filter_append, List.map_append, ← valuesOf]
  by_cases same : m.1 = key <;> simp [same]

theorem mem_insertMember_iff {key k : String} {v w : Value} {members : List (String × Value)}
    (sorted : Sorted members) :
    (k, w) ∈ insertMember key v members ↔ k = key ∧ w = v ∨ k ≠ key ∧ (k, w) ∈ members := by
  induction members with
  | nil => simp [insertMember]
  | cons first rest ih =>
    obtain ⟨k', v'⟩ := first
    obtain ⟨least, tail⟩ := List.pairwise_cons.mp sorted
    have differs {a : String} (before : a < k' ∨ a = k') : (k, w) ∈ rest → k ≠ a := by
      rintro member rfl
      have less := least _ member
      rcases before with before | rfl
      · exact String.lt_asymm less before
      · exact String.lt_irrefl _ less
    simp only [insertMember]
    split
    · next before =>
      have other : k' ≠ key := fun same => String.lt_irrefl _ (same ▸ before)
      have differs := differs (.inl before)
      simp only [List.mem_cons, Prod.mk.injEq]
      grind
    · split
      · next same =>
        have differs := differs (.inr same)
        simp only [List.mem_cons, Prod.mk.injEq]
        grind
      · next differ =>
        simp only [List.mem_cons, Prod.mk.injEq, ih tail]
        grind

/-! ### Readers in step -/

/-- Whatever the first member leads to from a state, the second leads to from every state that matches it,
as long as the first one ends in a state of a kind that is entered only from states of that kind. -/
theorem foldMembers_matched {σ τ : Type} {member : σ → String → Octets → Except Error (σ × Octets)}
    {member' : τ → String → Octets → Except Error (τ × Octets)} {P : σ → Prop} {R : σ → τ → Prop}
    (back : ∀ s key bs s' rest, member s key bs = .ok (s', rest) → P s' → P s)
    (each : ∀ s t key bs s' rest, member s key bs = .ok (s', rest) → P s' → R s t →
      ∃ t', member' t key bs = .ok (t', rest) ∧ R s' t')
    {fuel : Nat} {first : Bool} {s : σ} {bs : Octets} {s' : σ} {rest : Octets}
    (made : foldMembers member fuel first s bs = .ok (s', rest)) (ends : P s') :
    P s ∧ ∀ t, R s t → ∃ t', foldMembers member' fuel first t bs = .ok (t', rest) ∧ R s' t' := by
  induction fuel generalizing first s bs with
  | zero => cases made
  | succ fuel ih =>
    rw [foldMembers, bind_eq_ok] at made
    obtain ⟨next?, found, made⟩ := made
    cases next? with
    | none =>
      cases made
      refine ⟨ends, fun t matches' => ⟨t, ?_, matches'⟩⟩
      rw [foldMembers, bind_eq_ok]
      exact ⟨none, found, rfl⟩
    | some after =>
      obtain ⟨⟨key, left⟩, named, made⟩ := bind_eq_ok.mp made
      obtain ⟨⟨middle, left'⟩, one, made⟩ := bind_eq_ok.mp made
      obtain ⟨before, others⟩ := ih made
      refine ⟨back _ _ _ _ _ one before, fun t matches' => ?_⟩
      obtain ⟨t', one', matches'⟩ := each _ _ _ _ _ _ one before matches'
      obtain ⟨t'', others', matches'⟩ := others t' matches'
      refine ⟨t'', ?_, matches'⟩
      rw [foldMembers, bind_eq_ok]
      refine ⟨some after, found, ?_⟩
      exact bind_eq_ok.mpr ⟨_, named, bind_eq_ok.mpr ⟨_, one', others'⟩⟩

/-- A document that is read is a scalar, an array or an object, by the octet that it starts with. -/
theorem value_cases {depth : Nat} {bs rest : Octets} {v : Value}
    (made : value depth bs = .ok (v, rest)) : ∃ b after, skipGap bs = b :: after ∧
      ((b ≠ octet '[' ∧ b ≠ octet '\x7b' ∧ scalar b after = .ok (v, rest)) ∨
        (b = octet '[' ∧ ∃ items, v = .array items) ∨
        (b = octet '\x7b' ∧ ∃ d ms, depth = d + 1 ∧ members (value d) after = .ok (ms, rest) ∧
          v = .ofMembers ms)) := by
  unfold value at made
  split at made
  · cases made
  · next b after starts =>
    refine ⟨b, after, starts, ?_⟩
    split at made
    · next list =>
      split at made
      · cases made
      · obtain ⟨⟨items, left⟩, -, same⟩ := map_eq_ok.mp made
        cases same
        exact .inr (.inl ⟨list, items, rfl⟩)
    · next noList =>
      split at made
      · next object =>
        split at made
        · cases made
        · next d =>
          obtain ⟨⟨ms, left⟩, inside, same⟩ := map_eq_ok.mp made
          cases same
          exact .inr (.inr ⟨object, d, ms, rfl, inside, rfl⟩)
      · next noObject => exact .inl ⟨noList, noObject, made⟩

theorem value_of_scalar {bs rest : Octets} {b : UInt8} (starts : skipGap bs = b :: rest)
    (noBracket : ¬ (b = octet '[' ∨ b = octet '\x7b')) (depth : Nat) :
    value depth bs = scalar b rest := by
  obtain ⟨noList, noObject⟩ := not_or.mp noBracket
  cases depth <;> simp only [value, starts, if_neg noList, if_neg noObject]

/-- A reader of scalars of some kind succeeds exactly if the document at hand is of this kind. -/
theorem scalarAt_eq_ok_iff {α : Type} {accept : Value → Except Mismatch α} {expected : String}
    (scalars : ∀ v a, accept v = .ok a → v.IsScalar) (depth : Nat) {bs rest : Octets} {a : α} :
    scalarAt expected accept bs = .ok (a, rest) ↔
      ∃ v, value depth bs = .ok (v, rest) ∧ accept v = .ok a := by
  unfold scalarAt
  constructor
  · intro made
    split at made
    · cases made
    · next b after starts =>
      split at made
      · cases made
      · next noBracket =>
        rw [value_of_scalar starts noBracket]
        split at made
        · cases made
        · next v left reads =>
          split at made
          · next accepts =>
            cases made
            exact ⟨v, reads, accepts⟩
          · cases made
  · rintro ⟨v, reads, accepts⟩
    have scalar := scalars v a accepts
    obtain ⟨b, after, starts, ⟨noList, noObject, inside⟩ | ⟨-, items, rfl⟩ | ⟨-, _, ms, -, -, rfl⟩⟩ :=
      value_cases reads
    · simp only [starts, if_neg (not_or.mpr ⟨noList, noObject⟩), inside, accepts]
    · exact scalar.elim
    · exact scalar.elim

/-! ### The members of a text -/

/-- Takes any member, given its key and the octets from its colon on. -/
def collect (depth : Nat) (read : List (String × Value)) (key : String) (bs : Octets) :
    Except Error (List (String × Value) × Octets) := do
  let bs ← colon bs
  let (v, bs) ← value depth bs
  pure ((key, v) :: read, bs)

theorem collect_eq_ok_iff {depth : Nat} {read read' : List (String × Value)} {key : String}
    {bs rest : Octets} :
    collect depth read key bs = .ok (read', rest) ↔
      ∃ left v, colon bs = .ok left ∧ value depth left = .ok (v, rest) ∧ read' = (key, v) :: read := by
  constructor
  · intro made
    obtain ⟨left, after, made⟩ := bind_eq_ok.mp made
    obtain ⟨⟨v, left'⟩, reading, made⟩ := bind_eq_ok.mp made
    cases made
    exact ⟨left, v, after, reading, rfl⟩
  · rintro ⟨left, v, after, reading, rfl⟩
    exact bind_eq_ok.mpr ⟨left, after, bind_eq_ok.mpr ⟨_, reading, rfl⟩⟩

/-- The members of an object are collected from the last one back. -/
theorem members_eq_ok_iff {depth : Nat} {bs rest : Octets} {ms : List (String × Value)} :
    members (value depth) bs = .ok (ms, rest) ↔
      foldMembers (collect depth) (bs.length + 1) true [] bs = .ok (ms.reverse, rest) := by
  constructor
  · intro made
    obtain ⟨⟨read, left⟩, folded, same⟩ := map_eq_ok.mp made
    cases same
    rw [List.reverse_reverse]
    exact folded
  · intro folded
    exact map_eq_ok.mpr ⟨_, folded, by simp only [List.reverse_reverse]⟩

/-- The text is an object that lists these members. -/
def Lists (bs : Octets) (ms : List (String × Value)) : Prop :=
  ∃ after, skipGap bs = octet '\x7b' :: after ∧
    complete (members (value (maxDepth - 1)) after) = .ok ms

theorem Lists.unique {bs : Octets} {ms ms' : List (String × Value)} (lists : Lists bs ms)
    (lists' : Lists bs ms') : ms = ms' := by
  obtain ⟨after, starts, reads⟩ := lists
  obtain ⟨after', starts', reads'⟩ := lists'
  rw [starts] at starts'
  cases starts'
  exact Except.ok.inj (reads.symm.trans reads')

theorem complete_eq_ok_iff {α : Type} {reading : Except Error (α × Octets)} {a : α} :
    complete reading = .ok a ↔ ∃ rest, reading = .ok (a, rest) ∧ skipGap rest = [] := by
  constructor
  · intro made
    obtain ⟨⟨a', rest⟩, reads, ended⟩ := bind_eq_ok.mp made
    dsimp only at ended
    split at ended
    · next nothing =>
      cases ended
      exact ⟨rest, reads, nothing⟩
    · cases ended
  · rintro ⟨rest, reads, nothing⟩
    rw [complete, reads]
    exact if_pos nothing

/-- A text holds an object exactly if it lists members, and the object is made of these. -/
theorem read_object_iff {bs : Octets} {os : List (String × Value)} :
    Value.read bs = .ok (.object os) ↔ ∃ ms, Lists bs ms ∧ os = sortMembers ms := by
  rw [Value.read, complete_eq_ok_iff]
  constructor
  · rintro ⟨rest, reads, nothing⟩
    obtain ⟨b, after, starts, ⟨-, -, inside⟩ | ⟨-, items, same⟩ | ⟨rfl, d, ms, depth, inside, same⟩⟩ :=
      value_cases reads
    · have canonical : (Value.object os).Canonical 0 := canonical_of_scalar inside
      cases canonical
    · cases same
    · cases depth
      cases same
      exact ⟨ms, ⟨after, starts, complete_eq_ok_iff.mpr ⟨rest, inside, nothing⟩⟩, rfl⟩
  · rintro ⟨ms, ⟨after, starts, reads⟩, rfl⟩
    obtain ⟨rest, inside, nothing⟩ := complete_eq_ok_iff.mp reads
    refine ⟨rest, ?_, nothing⟩
    have noList : octet '\x7b' ≠ octet '[' := by decide
    have inside' : members (value 126) after = .ok (ms, rest) := inside
    simp only [maxDepth, value, starts, if_neg noList, if_pos, inside']
    rfl

end EventPipeline.Json
