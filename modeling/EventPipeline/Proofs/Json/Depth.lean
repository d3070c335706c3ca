import EventPipeline.Proofs.Json.RoundTrip

/-! # How deep documents nest

A document is canonical to a depth exactly when its objects are ordered and it nests at most so deep
(`canonical_iff`). A reader that may go deeper makes the same of a text as one that may not, as long as
the latter succeeds; so a written document is read at all only by readers that may go as deep as it
nests (`depth_le_of_value_chars`).
-/

namespace EventPipeline.Json

/-- A document in whose objects the members stand in increasing order of their keys, each key once. -/
inductive Value.Ordered : Value → Prop where
  | null : Ordered .null
  | boolean (b : Bool) : Ordered (.boolean b)
  | number (n : Number) : Ordered (.number n)
  | string (s : String) : Ordered (.string s)
  | array {items : List Value} (each : ∀ v ∈ items, Ordered v) : Ordered (.array items)
  | object {members : List (String × Value)} (sorted : Sorted members)
    (each : ∀ m ∈ members, Ordered m.2) : Ordered (.object members)

theorem itemsDepth_le_iff {items : List Value} {n : Nat} :
    itemsDepth items ≤ n ↔ ∀ v ∈ items, v.depth ≤ n := by
  induction items with
  | nil => simp [itemsDepth]
  | cons v items ih => rw [itemsDepth, Nat.max_le, ih, List.forall_mem_cons]

theorem membersDepth_le_iff {members : List (String × Value)} {n : Nat} :
    membersDepth members ≤ n ↔ ∀ m ∈ members, m.2.depth ≤ n := by
  induction members with
  | nil => simp [membersDepth]
  | cons m members ih => rw [membersDepth, Nat.max_le, ih, List.forall_mem_cons]

@[simp] theorem membersDepth_append (first second : List (String × Value)) :
    membersDepth (first ++ second) = max (membersDepth first) (membersDepth second) := by
  induction first with
  | nil => simp [membersDepth]
  | cons m first ih => rw [List.cons_append, membersDepth, membersDepth, ih, Nat.max_assoc]

theorem Value.Canonical.ordered {depth : Nat} {v : Value} (canonical : v.Canonical depth) :
    v.Ordered ∧ v.depth ≤ depth := by
  induction canonical with
  | null => exact ⟨.null, Nat.zero_le _⟩
  | boolean b => exact ⟨.boolean b, Nat.zero_le _⟩
  | number n => exact ⟨.number n, Nat.zero_le _⟩
  | string s => exact ⟨.string s, Nat.zero_le _⟩
  | array _ ih =>
    refine ⟨.array fun v mem => (ih v mem).1, ?_⟩
    exact Nat.succ_le_succ (itemsDepth_le_iff.mpr fun v mem => (ih v mem).2)
  | object sorted _ ih =>
    refine ⟨.object sorted fun m mem => (ih m mem).1, ?_⟩
    exact Nat.succ_le_succ (membersDepth_le_iff.mpr fun m mem => (ih m mem).2)

theorem Value.Ordered.canonical {v : Value} (ordered : v.Ordered) {depth : Nat}
    (within : v.depth ≤ depth) : v.Canonical depth := by
  induction ordered generalizing depth with
  | null => exact .null
  | boolean b => exact .boolean b
  | number n => exact .number n
  | string s => exact .string s
  | array _ ih =>
    obtain ⟨depth, rfl⟩ := Nat.exists_eq_add_one_of_ne_zero (Nat.ne_zero_of_lt within)
    have each := itemsDepth_le_iff.mp (Nat.le_of_succ_le_succ within)
    exact .array fun v mem => ih v mem (each v mem)
  | object sorted _ ih =>
    obtain ⟨depth, rfl⟩ := Nat.exists_eq_add_one_of_ne_zero (Nat.ne_zero_of_lt within)
    have each := membersDepth_le_iff.mp (Nat.le_of_succ_le_succ within)
    exact .object sorted fun m mem => ih m mem (each m mem)

/-- A document is canonical to a depth if and only if its objects are ordered and it nests no deeper. -/
theorem canonical_iff {depth : Nat} {v : Value} :
    v.Canonical depth ↔ v.Ordered ∧ v.depth ≤ depth :=
  ⟨Value.Canonical.ordered, fun ⟨ordered, within⟩ => ordered.canonical within⟩

/-- A pair of brackets with `n` further pairs around it. -/
def Value.nested : (n : Nat) → Value
  | 0 => .array []
  | n + 1 => .array [nested n]

theorem Value.ordered_nested (n : Nat) : (nested n).Ordered := by
  induction n with
  | zero => exact .array nofun
  | succ n ih => exact .array (List.forall_mem_singleton.mpr ih)

theorem Value.depth_nested (n : Nat) : (nested n).depth = n + 1 := by
  induction n with
  | zero => rfl
  | succ n ih => rw [nested, depth, itemsDepth, ih, itemsDepth, Nat.max_zero]

/-! ### Readers that may go deeper -/

/-- Whatever the first reader makes of a text, the second one makes of it too. -/
def Extends {α : Type} (read read' : Octets → Except Error (α × Octets)) : Prop :=
  ∀ bs made, read bs = .ok made → read' bs = .ok made

theorem Extends.elements {α : Type} {item item' : Octets → Except Error (α × Octets)}
    (items : Extends item item') (fuel : Nat) (first : Bool) :
    Extends (elements item fuel first) (elements item' fuel first) := by
  intro bs made reads
  induction fuel generalizing first bs made with
  | zero => cases reads
  | succ fuel ih =>
    rw [Json.elements, bind_eq_ok] at reads ⊢
    obtain ⟨next?, found, reads⟩ := reads
    refine ⟨next?, found, ?_⟩
    cases next? with
    | none => exact reads
    | some after =>
      obtain ⟨⟨v, left⟩, one, reads⟩ := bind_eq_ok.mp reads
      obtain ⟨⟨vs, left'⟩, others, reads⟩ := bind_eq_ok.mp reads
      refine bind_eq_ok.mpr ⟨_, items _ _ one, ?_⟩
      exact bind_eq_ok.mpr ⟨_, ih false _ _ others, reads⟩

theorem Extends.foldMembers {σ : Type} {member member' : σ → String → Octets → Except Error (σ × Octets)}
    (each : ∀ s key, Extends (member s key) (member' s key)) (fuel : Nat) (first : Bool) (s : σ) :
    Extends (foldMembers member fuel first s) (foldMembers member' fuel first s) := by
  intro bs made reads
  induction fuel generalizing first s bs made with
  | zero => cases reads
  | succ fuel ih =>
    rw [Json.foldMembers, bind_eq_ok] at reads ⊢
    obtain ⟨next?, found, reads⟩ := reads
    refine ⟨next?, found, ?_⟩
    cases next? with
    | none => exact reads
    | some after =>
      obtain ⟨⟨key, left⟩, named, reads⟩ := bind_eq_ok.mp reads
      obtain ⟨⟨s', left'⟩, one, reads⟩ := bind_eq_ok.mp reads
      refine bind_eq_ok.mpr ⟨_, named, ?_⟩
      exact bind_eq_ok.mpr ⟨_, each s key _ _ one, ih false _ _ _ reads⟩

theorem Extends.members {α : Type} {value value' : Octets → Except Error (α × Octets)}
    (values : Extends value value') : Extends (members value) (members value') := by
  intro bs made reads
  obtain ⟨folded, fold, same⟩ := map_eq_ok.mp reads
  refine map_eq_ok.mpr ⟨folded, Extends.foldMembers ?_ _ _ _ _ _ fold, same⟩
  intro s key bs made reads
  obtain ⟨left, mark, reads⟩ := bind_eq_ok.mp reads
  obtain ⟨⟨v, left'⟩, one, reads⟩ := bind_eq_ok.mp reads
  refine bind_eq_ok.mpr ⟨left, mark, ?_⟩
  exact bind_eq_ok.mpr ⟨_, values _ _ one, reads⟩

theorem extends_value_succ (depth : Nat) : Extends (value depth) (value (depth + 1)) := by
  induction depth with
  | zero =>
    intro bs made reads
    unfold value at reads ⊢
    split at reads
    · cases reads
    split at reads
    · cases reads
    split at reads
    · cases reads
    · next noList noObject =>
      simp only [if_neg noList, if_neg noObject]
      exact reads
  | succ depth ih =>
    intro bs made reads
    unfold value at reads ⊢
    split at reads
    · cases reads
    split at reads
    · next list =>
      obtain ⟨inside, items, same⟩ := map_eq_ok.mp reads
      rw [if_pos list]
      exact map_eq_ok.mpr ⟨inside, ih.elements _ _ _ _ items, same⟩
    split at reads
    · next noList object =>
      obtain ⟨inside, members, same⟩ := map_eq_ok.mp reads
      rw [if_neg noList, if_pos object]
      exact map_eq_ok.mpr ⟨inside, ih.members _ _ members, same⟩
    · next noList noObject =>
      rw [if_neg noList, if_neg noObject]
      exact reads

theorem extends_value {depth depth' : Nat} (deeper : depth ≤ depth') :
    Extends (value depth) (value depth') := by
  induction deeper with
  | refl => exact fun _ _ reads => reads
  | step _ ih => exact fun bs made reads => extends_value_succ _ bs made (ih bs made reads)

/-- A reader that makes something of a written document may go as deep as this document nests. -/
theorem depth_le_of_value_chars {v v' : Value} (ordered : v.Ordered) {rest rest' : Octets}
    (ends : EndsNumber rest) {depth : Nat}
    (made : value depth (encodeChars v.chars ++ rest) = .ok (v', rest')) : v.depth ≤ depth := by
  -- a reader that may go deep enough for both makes the same of the text as either
  have whole := value_chars (ordered.canonical (Nat.le_max_right depth v.depth)) ends
  have same := extends_value (Nat.le_max_left depth v.depth) _ _ made
  rw [whole] at same
  cases same
  exact (canonical_of_value made).ordered.2

/-! ### Written members that are taken -/

section Folds

variable {σ : Type} {member : σ → String → Octets → Except Error (σ × Octets)} {s s' : σ}
  {ms : List (String × List Char)} {key : String} {written : List Char}
  {more : List (String × List Char)} {fuel : Nat} {rest : Octets} {made : σ × Octets}

theorem Folds.takes_of_membersTail (folds : Folds member s ms s')
    (reads : foldMembers member fuel false s
      (encodeChars (membersTail (ms ++ (key, written) :: more)) ++ octet '\x7d' :: rest) = .ok made) :
    ∃ rest' taken, EndsNumber rest' ∧
      member s' key (octet ':' :: (encodeChars written ++ rest')) = .ok taken := by
  induction folds generalizing fuel with
  | done s =>
    cases fuel with
    | zero => cases reads
    | succ fuel =>
      rw [List.nil_append, encodeChars_membersTail, foldMembers] at reads
      simp only [nextKey_comma, bind, Except.bind, string_stringChars] at reads
      obtain ⟨taken, takes, -⟩ := bind_eq_ok.mp reads
      exact ⟨_, taken, endsNumber_membersTail more rest, takes⟩
  | @step _ _ _ key' written' ms takes _ ih =>
    cases fuel with
    | zero => cases reads
    | succ fuel =>
      rw [List.cons_append, encodeChars_membersTail, foldMembers] at reads
      simp only [nextKey_comma, bind, Except.bind, string_stringChars,
        takes _ (endsNumber_membersTail _ rest)] at reads
      exact ih reads

/-- If an object is read as a whole, then so is the member after those that are known to be taken. -/
theorem Folds.takes (folds : Folds member s ms s')
    (reads : foldMembers member fuel true s
      (encodeChars (joinedMembers (ms ++ (key, written) :: more)) ++ octet '\x7d' :: rest) =
        .ok made) :
    ∃ rest' taken, EndsNumber rest' ∧
      member s' key (octet ':' :: (encodeChars written ++ rest')) = .ok taken := by
  cases fuel with
  | zero => cases reads
  | succ fuel =>
    cases folds with
    | done =>
      rw [List.nil_append, joinedMembers, encodeChars_append, List.append_assoc,
        encodeChars_memberChars, foldMembers] at reads
      simp only [nextKey_first, bind, Except.bind, string_stringChars] at reads
      obtain ⟨taken, takes, -⟩ := bind_eq_ok.mp reads
      exact ⟨_, taken, endsNumber_membersTail more rest, takes⟩
    | @step _ _ _ key' written' ms takes further =>
      rw [List.cons_append, joinedMembers, encodeChars_append, List.append_assoc,
        encodeChars_memberChars, foldMembers] at reads
      simp only [nextKey_first, bind, Except.bind, string_stringChars,
        takes _ (endsNumber_membersTail _ rest)] at reads
      exact further.takes_of_membersTail reads

end Folds

/-- A written document is read as a whole if it nests no deeper than readers go. -/
theorem read_chars {v : Value} (canonical : v.Canonical maxDepth) :
    Value.read (encodeChars v.chars) = .ok v := by
  have reads : value maxDepth (encodeChars v.chars ++ []) = .ok (v, []) :=
    value_chars canonical ⟨nofun, nofun⟩
  rw [List.append_nil] at reads
  rw [Value.read, reads]
  rfl

theorem canonical_of_read {bs : Octets} {v : Value} (made : Value.read bs = .ok v) :
    v.Canonical maxDepth := by
  obtain ⟨⟨v', rest⟩, reads, ended⟩ := bind_eq_ok.mp made
  dsimp only at ended
  split at ended
  · cases ended
    exact canonical_of_value reads
  · cases ended

end EventPipeline.Json
