import EventPipeline.Config.Placeholder

/-! # Where placeholders stand

A placeholder has its only dollar sign in front, so two of them in a text never overlap, and a text is
divided in exactly one way into its placeholders and the characters outside them (`divides_iff`). What
`substitute` puts in therefore depends on the placeholders of the text alone (`fills_placeholders_once`): a
value is never searched for placeholders, and two texts can be filled in apart if no placeholder lies across.
-/

namespace EventPipeline.Placeholder

variable {env : Environment} {cs name before after : List Char} {ps : List Piece}

/-! ### The pieces of a text -/

/-- Whether a text is a variable's name. -/
def isName : List Char → Bool
  | [] => false
  | c :: rest => isNameStart c && rest.all isNamePart

theorem first?_spelling {name : List Char} (valid : isName name = true) (after : List Char) :
    first? (spelling name ++ after) = some (name, after) := by
  obtain _ | ⟨c, rest⟩ := name
  · cases valid
  · obtain ⟨start, parts⟩ := Bool.and_eq_true_iff.mp valid
    have parts : ∀ d ∈ rest, isNamePart d = true := List.all_eq_true.mp parts
    have ends : (rest ++ '\x7d' :: after).dropWhile isNamePart = '\x7d' :: after := by
      rw [List.dropWhile_append_of_pos parts]
      rfl
    have whole : (rest ++ '\x7d' :: after).takeWhile isNamePart = rest := by
      rw [List.takeWhile_append_of_pos parts]
      exact List.append_nil rest
    simp [first?, spelling, start, ends, whole]

theorem pieces_of_first?_none {c : Char} {cs : List Char} (none : first? (c :: cs) = none) :
    pieces (c :: cs) = .plain c :: pieces cs := by
  rw [pieces]
  split
  · next found => cases none.symm.trans found
  · rfl

theorem pieces_spelling {name : List Char} (after : List Char)
    (starts : first? (spelling name ++ after) = some (name, after)) :
    pieces (spelling name ++ after) = .placeholder name :: pieces after := by
  rw [pieces]
  split
  · next found =>
    cases starts.symm.trans found
    rfl
  · next found => cases starts.symm.trans found

theorem pieces_append {cs : List Char} (plain : '$' ∉ cs) (ds : List Char) :
    pieces (cs ++ ds) = cs.map .plain ++ pieces ds := by
  induction cs with
  | nil => rfl
  | cons c cs ih =>
    have other : c ≠ '$' := fun same => plain (same ▸ List.mem_cons_self)
    have none : first? (c :: (cs ++ ds)) = none := by
      unfold first?
      split
      · next start => exact absurd (List.cons.inj start).1 other
      · rfl
    have later := ih fun member => plain (List.mem_cons_of_mem _ member)
    rw [List.cons_append, pieces_of_first?_none none, later]
    rfl

/-- A text without a dollar sign has no placeholder in it. -/
theorem pieces_of_plain (plain : '$' ∉ cs) : pieces cs = cs.map .plain := by
  have nothing : pieces [] = [] := by
    rw [pieces]
    rfl
  have divided := pieces_append plain []
  rwa [nothing, List.append_nil, List.append_nil] at divided

/-! ### Occurrences -/

theorem isName_of_first? (found : first? cs = some (name, after)) : isName name = true := by
  unfold first? at found
  split at found
  · next c rest =>
    split at found
    · next start =>
      split at found
      · obtain ⟨rfl, -⟩ := Prod.mk.inj (Option.some.inj found)
        exact Bool.and_eq_true_iff.mpr ⟨start, List.all_takeWhile⟩
      · cases found
    · cases found
  · cases found

/-- A text has a placeholder in it, between the characters before and those after. -/
structure Occurs (name before after cs : List Char) : Prop where
  named : isName name = true
  whole : cs = before ++ (spelling name ++ after)

theorem first?_eq_some_iff : first? cs = some (name, after) ↔ Occurs name [] after cs := by
  constructor
  · exact fun found => ⟨isName_of_first? found, eq_append_of_first? found⟩
  · rintro ⟨named, rfl⟩
    exact first?_spelling named after

theorem first?_eq_none_iff : first? cs = none ↔ ∀ name after, ¬ Occurs name [] after cs := by
  simp only [Option.eq_none_iff_forall_ne_some, Prod.forall, ne_eq, first?_eq_some_iff]

/-- No dollar sign in a placeholder but the first. -/
theorem dollar_notMem (named : isName name = true) : '$' ∉ '\x7b' :: name ++ ['\x7d'] := by
  obtain _ | ⟨c, rest⟩ := name
  · cases named
  · obtain ⟨start, parts⟩ := Bool.and_eq_true_iff.mp named
    intro dollar
    simp only [List.cons_append, List.mem_cons, List.mem_append, List.not_mem_nil, or_false] at dollar
    rcases dollar with same | rfl | listed | same
    · exact absurd same (by decide)
    · exact absurd start (by decide)
    · exact absurd (List.all_eq_true.mp parts _ listed) (by decide)
    · exact absurd same (by decide)

/-- Where a text starts with a placeholder, any other one comes after it. -/
theorem Occurs.exists_between {name' after' : List Char} (first : Occurs name [] after cs)
    (other : Occurs name' before after' cs) (later : before ≠ []) :
    ∃ between, before = spelling name ++ between ∧ Occurs name' between after' after := by
  have same : spelling name ++ after = before ++ (spelling name' ++ after') :=
    first.whole.symm.trans other.whole
  obtain ⟨between, rfl, rest⟩ | ⟨tail, whole, rest⟩ := List.append_eq_append_iff.mp same
  · exact ⟨between, rfl, other.named, rest⟩
  · obtain _ | ⟨c, before⟩ := before
    · exact absurd rfl later
    -- The other placeholder would start inside the first, where no dollar sign is.
    obtain _ | ⟨d, tail⟩ := tail
    · refine ⟨[], ?_, other.named, rest.symm⟩
      rw [whole, List.append_nil, List.append_nil]
    · have dollar : d = '$' := (List.cons.inj rest).1.symm
      have inside : '\x7b' :: name ++ ['\x7d'] = before ++ d :: tail := (List.cons.inj whole).2
      refine absurd ?_ (dollar_notMem first.named)
      rw [inside, dollar]
      exact List.mem_append_right _ List.mem_cons_self

/-- Two placeholders of a text do not overlap: they are the same, or one ends before the other starts. -/
theorem Occurs.not_overlap {name' before' after' : List Char} (o : Occurs name before after cs)
    (o' : Occurs name' before' after' cs) :
    (before = before' ∧ name = name' ∧ after = after') ∨
      before.length + (spelling name).length ≤ before'.length ∨
      before'.length + (spelling name').length ≤ before.length := by
  -- What both have before them is left out, and one of them then comes first.
  have first {name before after name' gap after' : List Char} (o : Occurs name before after cs)
      (o' : Occurs name' (before ++ gap) after' cs) :
      (gap = [] ∧ name = name' ∧ after = after') ∨ (spelling name).length ≤ gap.length := by
    have same := o.whole.symm.trans o'.whole
    rw [List.append_assoc, List.append_cancel_left_eq] at same
    have o : Occurs name [] after (spelling name ++ after) := ⟨o.named, rfl⟩
    have o' : Occurs name' gap after' (spelling name ++ after) := ⟨o'.named, same⟩
    by_cases together : gap = []
    · subst together
      obtain ⟨rfl, rfl⟩ :=
        Prod.mk.inj (Option.some.inj ((first?_eq_some_iff.mpr o).symm.trans (first?_eq_some_iff.mpr o')))
      exact .inl ⟨rfl, rfl, rfl⟩
    · obtain ⟨between, rfl, -⟩ := o.exists_between o' together
      rw [List.length_append]
      exact .inr (Nat.le_add_right _ _)
  obtain ⟨gap, rfl, -⟩ | ⟨gap, rfl, -⟩ := List.append_eq_append_iff.mp (o.whole.symm.trans o'.whole)
  · rcases first o o' with ⟨rfl, rfl, rfl⟩ | earlier
    · exact .inl ⟨(List.append_nil _).symm, rfl, rfl⟩
    · rw [List.length_append]
      omega
  · rcases first o' o with ⟨rfl, rfl, rfl⟩ | earlier
    · exact .inl ⟨List.append_nil _, rfl, rfl⟩
    · rw [List.length_append]
      omega

/-- No placeholder of two texts together lies across the border between them. -/
def Apart (a b : List Char) : Prop :=
  ∀ name before after, Occurs name before after (a ++ b) →
    before.length + (spelling name).length ≤ a.length ∨ a.length ≤ before.length

theorem Apart.of_append {front a b : List Char} (apart : Apart (front ++ a) b) : Apart a b := by
  intro name before after o
  have whole : front ++ a ++ b = front ++ before ++ (spelling name ++ after) := by
    rw [List.append_assoc, List.append_assoc, o.whole]
  have shifted := apart name (front ++ before) after ⟨o.named, whole⟩
  simp only [List.length_append] at shifted
  omega

theorem Occurs.apart (o : Occurs name before after cs) : Apart before (spelling name ++ after) := by
  intro name' before' after' o'
  rw [← o.whole] at o'
  rcases o'.not_overlap o with ⟨rfl, -, -⟩ | earlier | later
  · exact .inr (Nat.le_refl _)
  · exact .inl earlier
  · exact .inr (Nat.le_trans (Nat.le_add_right _ _) later)

/-- Texts with no placeholder across their border are divided apart. -/
theorem Apart.pieces_append {a b : List Char} (apart : Apart a b) :
    pieces (a ++ b) = pieces a ++ pieces b := by
  fun_induction pieces a with
  | case1 cs name after found _ ih =>
    obtain rfl := eq_append_of_first? found
    have starts := first?_spelling (isName_of_first? found) (after ++ b)
    rw [List.append_assoc, pieces_spelling _ starts, ih apart.of_append]
    rfl
  | case2 => rfl
  | case3 c rest none ih =>
    have none' : first? (c :: (rest ++ b)) = .none := by
      refine first?_eq_none_iff.mpr fun name after o => ?_
      -- The placeholder would lie in the first text, which starts with none.
      have inside : (spelling name).length ≤ (c :: rest).length := by
        have side := apart name [] after o
        simp only [List.length_nil, List.length_cons, Nat.zero_add] at side ⊢
        omega
      obtain ⟨tail, whole⟩ := List.prefix_of_prefix_length_le ⟨after, o.whole.symm⟩ ⟨b, rfl⟩ inside
      rw [← whole, first?_spelling o.named] at none
      cases none
    have later : Apart ([c] ++ rest) b := apart
    rw [List.cons_append, pieces_of_first?_none none', ih later.of_append]
    rfl

theorem Occurs.pieces_eq (o : Occurs name before after cs) :
    pieces cs = pieces before ++ .placeholder name :: pieces after := by
  rw [o.whole, o.apart.pieces_append, pieces_spelling _ (first?_spelling o.named after)]

/-! ### Dividing a text -/

/-- Pieces make up a text, and its placeholders are pieces of their own. -/
structure Divides (ps : List Piece) (cs : List Char) : Prop where
  whole : ps.flatMap Piece.source = cs
  placeholders : ∀ name before after, Occurs name before after cs ↔
    ∃ front back, ps = front ++ .placeholder name :: back ∧
      front.flatMap Piece.source = before ∧ back.flatMap Piece.source = after

theorem Piece.source_ne_nil (p : Piece) : p.source ≠ [] := by
  cases p <;> exact List.cons_ne_nil _ _

theorem isName_of_mem_pieces (listed : .placeholder name ∈ pieces cs) : isName name = true := by
  fun_induction pieces cs with
  | case1 cs other after found _ ih =>
    rcases List.mem_cons.mp listed with same | later
    · cases same
      exact isName_of_first? found
    · exact ih later
  | case2 => cases listed
  | case3 c rest none ih =>
    rcases List.mem_cons.mp listed with same | later
    · cases same
    · exact ih later

theorem divides_pieces (cs : List Char) : Divides (pieces cs) cs where
  whole := flatMap_source_pieces cs
  placeholders name before after := by
    constructor
    · intro o
      exact ⟨_, _, o.pieces_eq, flatMap_source_pieces before, flatMap_source_pieces after⟩
    · rintro ⟨front, back, split, rfl, rfl⟩
      have listed : .placeholder name ∈ pieces cs :=
        split ▸ List.mem_append_right _ List.mem_cons_self
      refine ⟨isName_of_mem_pieces listed, ?_⟩
      have whole := flatMap_source_pieces cs
      rw [split, List.flatMap_append, List.flatMap_cons] at whole
      exact whole.symm

theorem Divides.tail {p : Piece} (divides : Divides (p :: ps) cs) :
    Divides ps (ps.flatMap Piece.source) where
  whole := rfl
  placeholders name before after := by
    have whole : p.source ++ ps.flatMap Piece.source = cs := divides.whole
    constructor
    · intro o
      have shifted : Occurs name (p.source ++ before) after cs :=
        ⟨o.named, by rw [← whole, o.whole, List.append_assoc]⟩
      obtain ⟨front, back, split, here, rfl⟩ := (divides.placeholders ..).mp shifted
      obtain _ | ⟨q, front⟩ := front
      · exact absurd (List.append_eq_nil_iff.mp here.symm).1 p.source_ne_nil
      · obtain ⟨rfl, rest⟩ := List.cons.inj split
        exact ⟨front, back, rest, List.append_cancel_left here, rfl⟩
    · rintro ⟨front, back, rfl, rfl, rfl⟩
      have o := (divides.placeholders name _ _).mpr ⟨p :: front, back, rfl, rfl, rfl⟩
      exact ⟨o.named, by rw [List.flatMap_append, List.flatMap_cons]; rfl⟩

theorem Divides.eq_pieces (divides : Divides ps cs) : ps = pieces cs := by
  induction ps generalizing cs with
  | nil =>
    rw [← divides.whole, List.flatMap_nil, pieces]
    rfl
  | cons p ps ih =>
    have later := ih divides.tail
    have whole : p.source ++ ps.flatMap Piece.source = cs := divides.whole
    cases p with
    | placeholder name =>
      have o : Occurs name [] _ cs := (divides.placeholders ..).mpr ⟨[], ps, rfl, rfl, rfl⟩
      rw [← whole, Piece.source, pieces_spelling _ (first?_spelling o.named _), ← later]
    | plain c =>
      have none : first? (c :: ps.flatMap Piece.source) = none := by
        refine first?_eq_none_iff.mpr fun name after o => ?_
        have o : Occurs name [] after cs := whole ▸ o
        obtain ⟨_ | ⟨q, front⟩, back, split, here, -⟩ := (divides.placeholders ..).mp o
        · cases (List.cons.inj split).1
        · exact absurd (List.append_eq_nil_iff.mp here).1 q.source_ne_nil
      rw [← whole, Piece.source, List.singleton_append, pieces_of_first?_none none, ← later]

theorem divides_iff : Divides ps cs ↔ ps = pieces cs :=
  ⟨Divides.eq_pieces, fun same => same ▸ divides_pieces cs⟩

/-- Where a placeholder stands in what could have been another, it is the only one. -/
example : pieces "$\x7b$\x7bA\x7d\x7d".toList =
    [.plain '$', .plain '\x7b', .placeholder ['A'], .plain '\x7d'] := by decide +kernel

/-- No name starts with a digit, and no placeholder is without its end. -/
example : pieces "$\x7b1A\x7d$\x7bA".toList = "$\x7b1A\x7d$\x7bA".toList.map .plain := by decide +kernel

/-! ### Filling in -/

/-- A text without a dollar sign stays as it is. -/
theorem substitute_of_plain (plain : '$' ∉ cs) : substitute env cs = cs := by
  rw [substitute, pieces_of_plain plain, List.flatMap_map]
  exact List.flatMap_singleton' cs

theorem substitute_append {a b : List Char} (apart : Apart a b) :
    substitute env (a ++ b) = substitute env a ++ substitute env b := by
  rw [substitute, apart.pieces_append, List.flatMap_append]
  rfl

theorem Occurs.substitute_eq (o : Occurs name before after cs) :
    substitute env cs =
      substitute env before ++ Piece.fill env (.placeholder name) ++ substitute env after := by
  rw [substitute, o.pieces_eq, List.flatMap_append, List.flatMap_cons, ← List.append_assoc]
  rfl

/-- Placeholders do not overlap, and filling in a text replaces each of them once. The text is divided in
one way into its placeholders and other characters; each placeholder whose variable holds a text is replaced
by it, and all else stays in its order. What is put in, and what stands beside it, is not taken for a
placeholder afterwards, and texts with no placeholder across their border can be filled in apart. -/
theorem fills_placeholders_once (env : Environment) (cs : List Char) :
    (∀ name before after name' before' after', Occurs name before after cs →
      Occurs name' before' after' cs →
      (before = before' ∧ name = name' ∧ after = after') ∨
        before.length + (spelling name).length ≤ before'.length ∨
        before'.length + (spelling name').length ≤ before.length) ∧
    (∃ ps, (∀ qs, Divides qs cs ↔ qs = ps) ∧
      substitute env cs = ps.flatMap fun
        | .plain c => [c]
        | .placeholder name => ((env.text? (String.ofList name)).map String.toList).getD (spelling name)) ∧
    (∀ name before after, Occurs name before after cs →
      (∀ v, env.text? (String.ofList name) = some v →
        substitute env cs = substitute env before ++ v.toList ++ substitute env after) ∧
      (env.text? (String.ofList name) = none →
        substitute env cs = substitute env before ++ spelling name ++ substitute env after)) ∧
    ∀ a b, cs = a ++ b → Apart a b → substitute env cs = substitute env a ++ substitute env b := by
  refine ⟨fun _ _ _ _ _ _ o o' => o.not_overlap o', ⟨pieces cs, fun qs => divides_iff, ?_⟩, ?_, ?_⟩
  · refine congrArg (pieces cs).flatMap (funext fun piece => ?_)
    cases piece with
    | plain c => rfl
    | placeholder name =>
      simp only [Piece.fill]
      cases env.text? (String.ofList name) <;> rfl
  · intro name before after o
    constructor
    · intro v holds
      rw [o.substitute_eq, Piece.fill, holds]
    · intro unset
      rw [o.substitute_eq, Piece.fill, unset]
  · rintro a b rfl apart
    exact substitute_append apart

/-- The value of the first variable and the text after it would make a placeholder for the second, which is
not filled in; the dollar sign in front stays. -/
theorem sample_fills_placeholders_once :
    let env : Environment := [("A", octetsOf "$"), ("B", octetsOf "x")]
    let cs := "$$\x7bA\x7d\x7bB\x7d$\x7bB\x7d".toList
    ∃ before after before',
      Occurs ['A'] before after cs ∧ Occurs ['B'] before' [] cs ∧ Apart before (spelling ['A'] ++ after) ∧
      before.length + (spelling ['A']).length ≤ before'.length ∧
      substitute env cs = substitute env before ++ substitute env (spelling ['A'] ++ after) ∧
      substitute env cs = "$$\x7bB\x7dx".toList := by
  intro env cs
  have a : env.text? (String.ofList ['A']) = some "$" := textOf?_octetsOf "$"
  have b : env.text? (String.ofList ['B']) = some "x" := textOf?_octetsOf "x"
  have o : Occurs ['A'] ['$'] "\x7bB\x7d$\x7bB\x7d".toList cs := ⟨rfl, rfl⟩
  have o' : Occurs ['B'] "$$\x7bA\x7d\x7bB\x7d".toList [] cs := ⟨rfl, rfl⟩
  have last : Occurs ['B'] "\x7bB\x7d".toList [] "\x7bB\x7d$\x7bB\x7d".toList := ⟨rfl, rfl⟩
  obtain ⟨disjoint, -, fills, joins⟩ := fills_placeholders_once env cs
  obtain ⟨-, -, fills', -⟩ := fills_placeholders_once env "\x7bB\x7d$\x7bB\x7d".toList
  refine ⟨_, _, _, o, o', o.apart, ?_, joins _ _ o.whole o.apart, ?_⟩
  · rcases disjoint _ _ _ _ _ _ o o' with ⟨same, -⟩ | first | second
    · exact absurd same (by decide)
    · exact first
    · exact absurd second (by decide)
  · have dollar : substitute env ['$'] = ['$'] := by
      have none : first? ['$'] = none := rfl
      rw [substitute, pieces_of_first?_none none, pieces_of_plain List.not_mem_nil]
      rfl
    rw [(fills _ _ _ o).1 "$" a, (fills' _ _ _ last).1 "x" b, dollar,
      substitute_of_plain List.not_mem_nil, substitute_of_plain (by decide)]
    rfl

end EventPipeline.Placeholder
