import Mathlib.Data.List.DropRight
import EventPipeline.Proofs.Toml.Places
import EventPipeline.Proofs.Toml.Values

/-! # Texts with a string in the place of another

Where a reader comes to a value, there may be a string between quotation marks. `ComesTo` says that it
comes to one, on its way through lines, arrays and tables. Another string between the same marks is
read in its place, if it is plain, and all else is read as before: `read?_put` states that the document
is the same with the other string in one place.
-/

namespace EventPipeline.Toml

/-- What a reader is about to read. -/
inductive Part where
  /-- The rest of a document, from the start of a line. -/
  | lines
  | value (depth : Nat)
  /-- The items of an array that are left. -/
  | items (depth : Nat)
  /-- The members of a table between braces that are left. -/
  | members (depth : Nat)

/-- Reading a part of a text comes to a value that starts at `target`. -/
inductive ComesTo (target : List Char) : Part → List Char → Prop
  | here {depth} : ComesTo target (.value depth) target
  | array {depth rest} : ComesTo target (.items depth) rest →
      ComesTo target (.value (depth + 1)) ('[' :: rest)
  | table {depth rest} : ComesTo target (.members depth) rest →
      ComesTo target (.value (depth + 1)) ('\x7b' :: rest)
  | item {depth cs} : ComesTo target (.value depth) (skipFiller false cs) →
      ComesTo target (.items depth) cs
  | nextItem {depth cs v left rest} : value? depth (skipFiller false cs) = some (v, left) →
      skipFiller false left = ',' :: rest → ComesTo target (.items depth) rest →
      ComesTo target (.items depth) cs
  | member {depth cs path left rest} : path? cs = some (path, left) → after? '=' left = some rest →
      ComesTo target (.value depth) (skipBlanks rest) → ComesTo target (.members depth) cs
  | nextMember {depth cs m left rest} : assignment? (value? depth) cs = some (m, left) →
      skipBlanks left = ',' :: rest → ComesTo target (.members depth) rest →
      ComesTo target (.members depth) cs
  | line {cs path left rest} : path? (skipBlanks cs) = some (path, left) →
      after? '=' left = some rest → ComesTo target (.value maxDepth) (skipBlanks rest) →
      ComesTo target .lines cs
  | nextLine {cs st left rest} : statement? (skipBlanks cs) = some (st, left) →
      lineEnd? left = some rest → ComesTo target .lines rest → ComesTo target .lines cs
  | emptyLine {cs c more rest} : skipBlanks cs = c :: more → c = '#' ∨ c = '\n' ∨ c = '\r' →
      lineEnd? (c :: more) = some rest → ComesTo target .lines rest → ComesTo target .lines cs

/-! ### Plain strings -/

/-- A text that stands for itself between quotation marks. -/
def Plain (v : String) : Prop := ∀ c ∈ v.toList, isPrintable c ∧ c ≠ '"' ∧ c ≠ '\\'

instance : DecidablePred Plain := fun v =>
  List.decidableBAll (fun c => isPrintable c ∧ c ≠ '"' ∧ c ≠ '\\') v.toList

/-- A string on one line behind its first mark, and what comes after it. -/
def closing (v : String) (rest : List Char) : List Char := v.toList ++ '"' :: rest

theorem lineContent?_plain {cs rest : List Char} (plain : ∀ c ∈ cs, isPrintable c ∧ c ≠ '"' ∧ c ≠ '\\')
    {n : Nat} (enough : cs.length < n) :
    lineContent? .basic n (cs ++ '"' :: rest) = some (cs, rest) := by
  induction cs generalizing n with
  | nil =>
    obtain ⟨n, rfl⟩ := Nat.exists_eq_add_one_of_ne_zero (show n ≠ 0 by omega)
    rfl
  | cons c cs ih =>
    obtain ⟨n, rfl⟩ := Nat.exists_eq_add_one_of_ne_zero (show n ≠ 0 by omega)
    obtain ⟨printable, mark, escape⟩ := plain c List.mem_cons_self
    have further := ih (fun d member => plain d (List.mem_cons_of_mem c member))
      (Nat.lt_of_succ_lt_succ enough)
    rw [List.cons_append, lineContent?_cons, lineStep,
      if_neg (show c ≠ Quoting.basic.mark from mark), if_neg (fun h => escape h.2),
      if_pos printable, verbatim?, further]
    rfl

theorem content?_plain {v : String} {rest : List Char} (plain : Plain v)
    (closed : rest.head? ≠ some '"') : content? .basic (closing v rest) = some (v.toList, rest) := by
  unfold closing
  cases h : v.toList with
  | nil =>
    rw [List.nil_append, content?_cons, if_pos (show '"' = Quoting.basic.mark from rfl)]
    rcases rest with _ | ⟨d, rest⟩
    · rfl
    · have other : d ≠ '"' := fun same => closed (congrArg some same)
      rw [markFirst?]
      exact if_neg other
  | cons c cs =>
    have plain : ∀ d ∈ c :: cs, isPrintable d ∧ d ≠ '"' ∧ d ≠ '\\' := h ▸ plain
    have other : c ≠ Quoting.basic.mark := (plain c List.mem_cons_self).2.1
    rw [List.cons_append, content?_cons, if_neg other, ← lineContent?_cons, ← List.cons_append]
    have enough : (c :: cs).length < ((c :: cs) ++ '"' :: rest).length + 1 := by
      rw [List.length_append]
      omega
    exact lineContent?_plain plain enough

theorem value?_plain {v : String} {rest : List Char} (plain : Plain v)
    (closed : rest.head? ≠ some '"') (depth : Nat) :
    value? depth ('"' :: closing v rest) = some (.string v, rest) := by
  rw [value?_mark, content?_plain plain closed]
  simp

/-! ### What is read before the string -/

section Before

variable {α : Type} {s a cs : List Char}

/-- What is read before a mark that is left is read before any text. -/
theorem Local.before {read : List Char → Option (α × List Char)} (h : Local read) {x : α}
    (made : read cs = some (x, marked s a)) :
    ∃ a', cs = marked s a' ∧ ∀ s', read (marked s' a') = some (x, marked s' a) := by
  obtain ⟨a', rfl⟩ := eq_marked_of_suffix (h.suffix made)
  exact ⟨a', rfl, fun s' => h.moves s' made⟩

theorem LocalSkip.before {skip : List Char → Option (List Char)} (h : LocalSkip skip)
    (made : skip cs = some (marked s a)) :
    ∃ a', cs = marked s a' ∧ ∀ s', skip (marked s' a') = some (marked s' a) := by
  obtain ⟨a', rfl⟩ := eq_marked_of_suffix (h.suffix made)
  exact ⟨a', rfl, fun s' => h.moves s' made⟩

theorem skipFiller_before {inComment : Bool} (made : skipFiller inComment cs = marked s a) :
    ∃ a', cs = marked s a' ∧ ∀ s', skipFiller inComment (marked s' a') = marked s' a := by
  obtain ⟨a', rfl⟩ := eq_marked_of_suffix (made ▸ skipFiller_suffix inComment cs)
  exact ⟨a', rfl, fun s' => skipFiller_moves made s'⟩

theorem skipBlanks_before (made : skipBlanks cs = marked s a) :
    ∃ a', cs = marked s a' ∧ ∀ s', skipBlanks (marked s' a') = marked s' a := by
  obtain ⟨a', rfl⟩ := eq_marked_of_suffix (made ▸ skipBlanks_suffix cs)
  rw [skipBlanks_marked, marked_inj] at made
  exact ⟨a', rfl, fun s' => by rw [skipBlanks_marked, made]⟩

end Before

/-! ### The string is read in its place -/

/-- With any plain string between the marks, a part of a text is read as with `v₀` there, but for that
string. -/
def Refills (v₀ : String) (rest : List Char) (part : Part) (cs : List Char) : Prop :=
  ∃ a, cs = marked (closing v₀ rest) a ∧
    match part with
    | .value depth => ∀ x left, value? depth cs = some (x, left) → ∃ p, x.Holds p ∧
        ∀ v, Plain v → value? depth (marked (closing v rest) a) = some (x.put v p, left)
    | .items depth => ∀ n xs left, items? (value? depth) n cs = some (xs, left) →
        ∃ i p, (Value.array false xs).Holds (.item i :: p) ∧ ∀ v, Plain v → ∀ m,
          (marked (closing v rest) a).length < m →
          items? (value? depth) m (marked (closing v rest) a) =
            some (xs.modify i (Value.put v p), left)
    | .members depth => ∀ n ms ms' left, inlineMembers? (value? depth) n ms cs = some (ms', left) →
        ∃ p, ms'.Holds p ∧ ∀ v, Plain v → ∀ m, (marked (closing v rest) a).length < m →
          inlineMembers? (value? depth) m ms (marked (closing v rest) a) = some (ms'.put v p, left)
    | .lines => ∀ n sts, statements? n cs = some sts →
        ∃ before path key x after p, sts = before ++ .assign path key x :: after ∧ x.Holds p ∧
          ∀ v, Plain v → ∀ m, (marked (closing v rest) a).length < m →
            statements? m (marked (closing v rest) a) =
              some (before ++ .assign path key (x.put v p) :: after)

section Steps

variable {v₀ : String} {rest : List Char} {depth : Nat}

theorem refills_here (plain : Plain v₀) (closed : rest.head? ≠ some '"') :
    Refills v₀ rest (.value depth) ('"' :: closing v₀ rest) := by
  refine ⟨[], rfl, fun x left made => ?_⟩
  rw [value?_plain plain closed] at made
  cases made
  exact ⟨[], ⟨v₀, rfl⟩, fun v plain => value?_plain plain closed depth⟩

theorem refills_array {cs : List Char} (h : Refills v₀ rest (.items depth) cs) :
    Refills v₀ rest (.value (depth + 1)) ('[' :: cs) := by
  obtain ⟨a, rfl, items⟩ := h
  refine ⟨'[' :: a, rfl, fun x left made => ?_⟩
  obtain ⟨⟨xs, left'⟩, read, same⟩ := Option.map_eq_some_iff.mp made
  cases same
  obtain ⟨i, p, holds, each⟩ := items _ xs _ read
  refine ⟨.item i :: p, holds, fun v plain => ?_⟩
  rw [marked_cons, value?_cons, if_pos rfl, array?, each v plain _ (Nat.lt_succ_self _)]
  rfl

theorem refills_table {cs : List Char} (open' : ¬['\x7d'] <+: skipBlanks cs)
    (h : Refills v₀ rest (.members depth) cs) :
    Refills v₀ rest (.value (depth + 1)) ('\x7b' :: cs) := by
  obtain ⟨a, rfl, members⟩ := h
  refine ⟨'\x7b' :: a, rfl, fun x left made => ?_⟩
  have quoteless : '"' ∉ ['\x7d'] := by decide
  have opens : ∀ s, ¬['\x7d'] <+: skipBlanks (marked s a) := fun s => by
    rw [skipBlanks_marked, prefix_marked_iff _ quoteless] at open' ⊢
    exact open'
  rw [value?_cons, if_neg (by decide), if_pos rfl, table?_of_members (opens _),
    Option.map_eq_some_iff] at made
  obtain ⟨⟨ms, left'⟩, read, same⟩ := made
  cases same
  obtain ⟨p, holds, each⟩ := members _ [] ms _ read
  refine ⟨p, Value.holds_table.mpr holds, fun v plain => ?_⟩
  rw [marked_cons, value?_cons, if_neg (by decide), if_pos rfl, table?_of_members (opens _),
    each v plain _ (Nat.lt_succ_self _), Value.put_table holds]
  rfl

/-- The items after the first are read alike. -/
theorem furtherItems?_alike {n : Nat} {x : Value} {cs left : List Char} {xs : List Value}
    (made : furtherItems? (items? (value? depth) n) x cs = some (xs, left)) :
    ∃ others, xs = x :: others ∧ ∀ m x', cs.length ≤ m →
      furtherItems? (items? (value? depth) m) x' cs = some (x' :: others, left) := by
  by_cases comma : [','] <+: cs
  · obtain ⟨cs, rfl⟩ := comma
    obtain ⟨⟨others, left'⟩, read, same⟩ := Option.bind_eq_some_iff.mp made
    cases same
    refine ⟨others, rfl, fun m x' enough => ?_⟩
    have again := items?_frugal (value?_local depth) _ m _ _ read
      (by simpa [Nat.add_comm, Nat.succ_le_iff] using enough)
    exact Option.bind_eq_some_iff.mpr ⟨_, again, rfl⟩
  · rw [furtherItems?_of_last _ _ comma] at made
    by_cases bracket : [']'] <+: cs
    · obtain ⟨cs, rfl⟩ := bracket
      cases made
      refine ⟨[], rfl, fun m x' _ => ?_⟩
      rw [furtherItems?_of_last _ _ comma]
      rfl
    · unfold lastItem? at made
      split at made
      · exact absurd (by simp) bracket
      · cases made

theorem refills_item {cs : List Char} (more : ¬[']'] <+: skipFiller false cs)
    (h : Refills v₀ rest (.value depth) (skipFiller false cs)) :
    Refills v₀ rest (.items depth) cs := by
  obtain ⟨b, start, value⟩ := h
  obtain ⟨a, rfl, starts⟩ := skipFiller_before start
  refine ⟨a, rfl, fun n xs left made => ?_⟩
  have quoteless : '"' ∉ [']'] := by decide
  have more : ∀ s, ¬[']'] <+: marked s b := fun s => by
    rw [start, prefix_marked_iff _ quoteless] at more
    rwa [prefix_marked_iff _ quoteless]
  cases n with
  | zero => cases made
  | succ n =>
    rw [items?_succ, start, itemsFrom?_of_open _ (more _)] at made
    obtain ⟨⟨x, left₁⟩, read, made⟩ := Option.bind_eq_some_iff.mp made
    obtain ⟨p, holds, each⟩ := value x left₁ (start ▸ read)
    obtain ⟨others, rfl, further⟩ := furtherItems?_alike made
    refine ⟨0, p, ⟨x, rfl, holds⟩, fun v plain m enough => ?_⟩
    obtain ⟨m, rfl⟩ := Nat.exists_eq_add_one_of_ne_zero (show m ≠ 0 by omega)
    have one := each v plain
    have bounded : (skipFiller false left₁).length ≤ m := by
      have after := ((skipFiller_suffix false left₁).trans ((value?_local depth).suffix one)).length_le
      have filler := (starts (closing v rest) ▸ skipFiller_suffix false _).length_le
      omega
    rw [items?_succ, starts, itemsFrom?_of_open _ (more _)]
    exact Option.bind_eq_some_iff.mpr ⟨_, one, further m _ bounded⟩

theorem value?_bracket (depth : Nat) (cs : List Char) : value? depth (']' :: cs) = none := by
  rw [value?_cons]
  rfl

theorem refills_nextItem {cs left after : List Char} {x : Value}
    (read : value? depth (skipFiller false cs) = some (x, left))
    (comma : skipFiller false left = ',' :: after) (h : Refills v₀ rest (.items depth) after) :
    Refills v₀ rest (.items depth) cs := by
  obtain ⟨d, rfl, items⟩ := h
  obtain ⟨c, rfl, behind⟩ := skipFiller_before (a := ',' :: d) comma
  obtain ⟨b, start, reads⟩ := (value?_local depth).before read
  obtain ⟨a, rfl, starts⟩ := skipFiller_before start
  refine ⟨a, rfl, fun n xs left made => ?_⟩
  have more : ∀ s, ¬[']'] <+: marked s b := by
    rintro s ⟨cs, bracket⟩
    have none := value?_bracket depth cs
    rw [← List.singleton_append, bracket, reads s] at none
    cases none
  cases n with
  | zero => cases made
  | succ n =>
    rw [items?_succ, start, itemsFrom?_of_open _ (more _)] at made
    obtain ⟨_, read', made⟩ := Option.bind_eq_some_iff.mp made
    cases (reads _).symm.trans read'
    simp only [behind] at made
    obtain ⟨⟨others, left₂⟩, further, made⟩ := Option.bind_eq_some_iff.mp made
    cases made
    obtain ⟨i, p, holds, each⟩ := items _ _ _ further
    refine ⟨i + 1, p, holds, fun v plain m enough => ?_⟩
    obtain ⟨m, rfl⟩ := Nat.exists_eq_add_one_of_ne_zero (show m ≠ 0 by omega)
    have shorter : (marked (closing v rest) d).length < m := by
      have filler := (starts (closing v rest) ▸ skipFiller_suffix false _).length_le
      have value := ((value?_local depth).suffix (reads (closing v rest))).length_le
      have after := (behind (closing v rest) ▸ skipFiller_suffix false _).length_le
      simp only [marked_cons, List.length_cons] at after
      omega
    rw [items?_succ, starts, itemsFrom?_of_open _ (more _)]
    refine Option.bind_eq_some_iff.mpr ⟨_, reads _, ?_⟩
    simp only [behind]
    exact Option.bind_eq_some_iff.mpr ⟨_, each v plain m shorter, rfl⟩

theorem furtherMembers?_eq_some {more : List Char → Option (Members × List Char)} {ms ms' : Members}
    {cs left : List Char} (made : furtherMembers? more ms cs = some (ms', left)) :
    (∃ after, cs = ',' :: after ∧ more after = some (ms', left)) ∨ cs = '\x7d' :: left ∧ ms' = ms := by
  unfold furtherMembers? at made
  split at made
  · exact .inl ⟨_, rfl, made⟩
  · cases made; exact .inr ⟨rfl, rfl⟩
  · cases made

/-- The members after some are read alike whatever a string in those is. -/
theorem inlineMembers?_put {n : Nat} {ms ms' : Members} {cs left : List Char} {p : Place}
    (holds : ms.Holds p) (made : inlineMembers? (value? depth) n ms cs = some (ms', left)) :
    ms'.Holds p ∧ ∀ s, inlineMembers? (value? depth) n (ms.put s p) cs = some (ms'.put s p, left) := by
  induction n generalizing ms cs with
  | zero => cases made
  | succ n ih =>
    rw [inlineMembers?_succ] at made
    obtain ⟨⟨⟨path, key, v⟩, left₁⟩, one, made⟩ := Option.bind_eq_some_iff.mp made
    obtain ⟨ms₁, assigned, made⟩ := Option.bind_eq_some_iff.mp made
    obtain ⟨same, kept⟩ := Members.assign_steady v key path p ms holds
    have assign : ∀ s, Members.assign v key path (ms.put s p) = some (ms₁.put s p) := fun s => by
      rw [same s, assigned]
      rfl
    have step : ∀ s, furtherMembers? (inlineMembers? (value? depth) n (ms₁.put s p)) (ms₁.put s p)
        (skipBlanks left₁) = some (ms'.put s p, left) →
        inlineMembers? (value? depth) (n + 1) (ms.put s p) cs = some (ms'.put s p, left) := fun s further =>
      Option.bind_eq_some_iff.mpr ⟨_, one, Option.bind_eq_some_iff.mpr ⟨_, assign s, further⟩⟩
    rcases furtherMembers?_eq_some made with ⟨after, comma, further⟩ | ⟨brace, rfl⟩
    · obtain ⟨place, again⟩ := ih (kept ms₁ assigned) further
      refine ⟨place, fun s => step s ?_⟩
      rw [comma]
      exact again s
    · refine ⟨kept _ assigned, fun s => step s ?_⟩
      rw [brace]
      rfl

theorem refills_member {cs left after : List Char} {path : List String × String}
    (keys : path? cs = some (path, left)) (equals : after? '=' left = some after)
    (h : Refills v₀ rest (.value depth) (skipBlanks after)) :
    Refills v₀ rest (.members depth) cs := by
  obtain ⟨d, start, value⟩ := h
  obtain ⟨c, rfl, starts⟩ := skipBlanks_before start
  obtain ⟨b, rfl, equal⟩ := (after?_passes (by decide)).local.before equals
  obtain ⟨a, rfl, reads⟩ := path?_local.before keys
  refine ⟨a, rfl, fun n ms ms' left made => ?_⟩
  have assignment : ∀ s, assignment? (value? depth) (marked s a) =
      (value? depth (marked s d)).map fun v => ((path.1, path.2, v.1), v.2) := fun s => by
    simp only [assignment?_eq, reads, equal, starts, Option.bind_eq_bind, Option.bind_some]
  cases n with
  | zero => cases made
  | succ n =>
    rw [inlineMembers?_succ, assignment] at made
    obtain ⟨_, one, made⟩ := Option.bind_eq_some_iff.mp made
    obtain ⟨ms₁, assigned, made⟩ := Option.bind_eq_some_iff.mp made
    obtain ⟨⟨x, left₁⟩, read, same⟩ := Option.map_eq_some_iff.mp one
    cases same
    obtain ⟨q, holds, each⟩ := value x left₁ (start ▸ read)
    obtain ⟨p, place, lands⟩ := Members.assign_lands path.2 path.1 q x ms ms₁ holds assigned
    have filled : ∀ v, Plain v → assignment? (value? depth) (marked (closing v rest) a) =
        some ((path.1, path.2, x.put v q), left₁) := fun v plain => by
      rw [assignment, each v plain]
      rfl
    have step : ∀ v, Plain v → ∀ m,
        furtherMembers? (inlineMembers? (value? depth) m (ms₁.put v p)) (ms₁.put v p)
          (skipBlanks left₁) = some (ms'.put v p, left) →
        inlineMembers? (value? depth) (m + 1) ms (marked (closing v rest) a) =
          some (ms'.put v p, left) := fun v plain m further =>
      Option.bind_eq_some_iff.mpr
        ⟨_, filled v plain, Option.bind_eq_some_iff.mpr ⟨_, lands v, further⟩⟩
    rcases furtherMembers?_eq_some made with ⟨after, comma, further⟩ | ⟨brace, rfl⟩
    · obtain ⟨place, again⟩ := inlineMembers?_put place further
      refine ⟨p, place, fun v plain m enough => ?_⟩
      obtain ⟨m, rfl⟩ := Nat.exists_eq_add_one_of_ne_zero (show m ≠ 0 by omega)
      have shorter : after.length < m := by
        have member := ((assignment?_local (value?_local depth)).suffix (filled v plain)).length_le
        have blanks := (skipBlanks_suffix left₁).length_le
        rw [comma, List.length_cons] at blanks
        omega
      refine step v plain m ?_
      rw [comma]
      exact inlineMembers?_frugal (value?_local depth) (again v) shorter
    · refine ⟨p, place, fun v plain m enough => ?_⟩
      obtain ⟨m, rfl⟩ := Nat.exists_eq_add_one_of_ne_zero (show m ≠ 0 by omega)
      refine step v plain m ?_
      rw [brace]
      rfl

theorem refills_nextMember {cs left after : List Char} {m : List String × String × Value}
    (read : assignment? (value? depth) cs = some (m, left))
    (comma : skipBlanks left = ',' :: after) (h : Refills v₀ rest (.members depth) after) :
    Refills v₀ rest (.members depth) cs := by
  obtain ⟨c, rfl, members⟩ := h
  obtain ⟨b, rfl, behind⟩ := skipBlanks_before (a := ',' :: c) comma
  obtain ⟨a, rfl, reads⟩ := (assignment?_local (value?_local depth)).before read
  refine ⟨a, rfl, fun n ms ms' left made => ?_⟩
  cases n with
  | zero => cases made
  | succ n =>
    rw [inlineMembers?_succ] at made
    obtain ⟨_, one, made⟩ := Option.bind_eq_some_iff.mp made
    cases (reads _).symm.trans one
    obtain ⟨ms₁, assigned, made⟩ := Option.bind_eq_some_iff.mp made
    simp only [behind] at made
    obtain ⟨p, holds, each⟩ := members n ms₁ ms' left made
    refine ⟨p, holds, fun v plain m' enough => ?_⟩
    obtain ⟨m', rfl⟩ := Nat.exists_eq_add_one_of_ne_zero (show m' ≠ 0 by omega)
    have shorter : (marked (closing v rest) c).length < m' := by
      have member := ((assignment?_local (value?_local depth)).suffix (reads (closing v rest))).length_le
      have after := (behind (closing v rest) ▸ skipBlanks_suffix _).length_le
      simp only [marked_cons, List.length_cons] at after
      omega
    refine Option.bind_eq_some_iff.mpr ⟨_, reads _, Option.bind_eq_some_iff.mpr ⟨_, assigned, ?_⟩⟩
    simp only [behind]
    exact each v plain m' shorter

/-! ### Lines -/

/-- No key starts with a character that is no blank, no mark and not one of those of bare keys. -/
theorem path?_eq_none {c : Char} (blank : isBlank c = false) (mark : Quoting.ofMark? c = none)
    (bare : isBareKey c = false) (cs : List Char) : path? (c :: cs) = none := by
  have shown : skipBlanks (c :: cs) = c :: cs := by simp [skipBlanks, blank]
  have key : simpleKey? (c :: cs) = none := by
    rw [simpleKey?_cons, keyBy?, mark]
    simp [bare]
  rw [path?_eq, show maxDepth = 78 + 1 from rfl, keys?_succ, shown, key]
  rfl

theorem ne_of_path? {c d : Char} {cs : List Char} {r : (List String × String) × List Char}
    (made : path? (c :: cs) = some r) (blank : isBlank d = false) (mark : Quoting.ofMark? d = none)
    (bare : isBareKey d = false) : c ≠ d := by
  rintro rfl
  rw [path?_eq_none blank mark bare] at made
  cases made

/-- A line that starts with a key is neither empty nor a header. -/
theorem start_of_path? {cs : List Char} {r : (List String × String) × List Char}
    (made : path? cs = some r) : ∃ c more, cs = c :: more ∧ c ≠ '[' ∧ ¬(c = '#' ∨ c = '\n' ∨ c = '\r') := by
  rcases cs with _ | ⟨c, cs⟩
  · cases made
  · refine ⟨c, cs, rfl, ne_of_path? made rfl rfl rfl, ?_⟩
    rintro (same | same | same)
    · exact ne_of_path? made rfl rfl rfl same
    · exact ne_of_path? made rfl rfl rfl same
    · exact ne_of_path? made rfl rfl rfl same

theorem start_of_statement? {cs : List Char} {r : Statement × List Char}
    (made : statement? cs = some r) :
    ∃ c more, cs = c :: more ∧ ¬(c = '#' ∨ c = '\n' ∨ c = '\r') := by
  by_cases header : ['['] <+: cs
  · obtain ⟨more, rfl⟩ := header
    exact ⟨'[', more, rfl, by decide⟩
  · rw [statement?_keyValue header] at made
    obtain ⟨assigned, read, -⟩ := Option.map_eq_some_iff.mp made
    rw [assignment?_eq] at read
    obtain ⟨path, keys, -⟩ := Option.bind_eq_some_iff.mp read
    obtain ⟨c, more, same, -, filled⟩ := start_of_path? keys
    exact ⟨c, more, same, filled⟩

theorem statements?_of_statement {a b s : List Char} (starts : skipBlanks (marked s a) = marked s b)
    (filled : ∃ c more, marked s b = c :: more ∧ ¬(c = '#' ∨ c = '\n' ∨ c = '\r')) (n : Nat) :
    statements? (n + 1) (marked s a) = statement? (marked s b) >>= fun st =>
      lineEnd? st.2 >>= fun rest => statements? n rest >>= fun others => pure (st.1 :: others) := by
  obtain ⟨c, more, same, filled⟩ := filled
  rw [statements?_succ, starts, same]
  exact if_neg filled

/-- A line with a key in it is read as the key with the value. -/
theorem statement?_of_path {cs left : List Char} {path : List String × String}
    (keys : path? cs = some (path, left)) : statement? cs =
      (after? '=' left >>= fun rest => (value? maxDepth (skipBlanks rest))).map fun v =>
        (.assign path.1 path.2 v.1, v.2) := by
  obtain ⟨c, more, rfl, bracket, -⟩ := start_of_path? keys
  rw [statement?_keyValue (by simpa using bracket.symm), keyValue?, assignment?_eq, keys]
  simp only [Option.bind_eq_bind, Option.bind_some]
  cases after? '=' left with
  | none => rfl
  | some rest => simp [Option.map_map, Function.comp_def]

theorem refills_line {cs left after : List Char} {path : List String × String}
    (keys : path? (skipBlanks cs) = some (path, left)) (equals : after? '=' left = some after)
    (h : Refills v₀ rest (.value maxDepth) (skipBlanks after)) : Refills v₀ rest .lines cs := by
  obtain ⟨e, start, value⟩ := h
  obtain ⟨d, rfl, starts⟩ := skipBlanks_before start
  obtain ⟨c, rfl, equal⟩ := (after?_passes (by decide)).local.before equals
  obtain ⟨b, line, reads⟩ := path?_local.before keys
  obtain ⟨a, rfl, lines⟩ := skipBlanks_before line
  refine ⟨a, rfl, fun n sts made => ?_⟩
  have statement : ∀ s, statement? (marked s b) =
      (value? maxDepth (marked s e)).map fun v => (.assign path.1 path.2 v.1, v.2) := fun s => by
    simp only [statement?_of_path (reads s), equal, Option.bind_eq_bind, Option.bind_some, starts]
  have filled : ∀ s, ∃ c more, marked s b = c :: more ∧ ¬(c = '#' ∨ c = '\n' ∨ c = '\r') := fun s => by
    obtain ⟨c, more, same, -, filled⟩ := start_of_path? (reads s)
    exact ⟨c, more, same, filled⟩
  cases n with
  | zero => cases made
  | succ n =>
    rw [statements?_of_statement line (filled _), statement] at made
    obtain ⟨_, one, made⟩ := Option.bind_eq_some_iff.mp made
    obtain ⟨⟨x, left₁⟩, read, same⟩ := Option.map_eq_some_iff.mp one
    cases same
    obtain ⟨left₂, ended, made⟩ := Option.bind_eq_some_iff.mp made
    obtain ⟨others, further, made⟩ := Option.bind_eq_some_iff.mp made
    cases made
    obtain ⟨q, holds, each⟩ := value x left₁ (start ▸ read)
    refine ⟨[], path.1, path.2, x, others, q, rfl, holds, fun v plain m enough => ?_⟩
    obtain ⟨m, rfl⟩ := Nat.exists_eq_add_one_of_ne_zero (show m ≠ 0 by omega)
    have one : statement? (marked (closing v rest) b) =
        some (.assign path.1 path.2 (x.put v q), left₁) := by rw [statement, each v plain]; rfl
    have shorter : left₂.length < m := by
      obtain ⟨c, more, same, -⟩ := filled (closing v rest)
      have line := lineEnd?_shorter (same ▸ statement?_local.suffix one) ended
      have blanks := (lines (closing v rest) ▸ skipBlanks_suffix _).length_le
      rw [← same] at line
      omega
    rw [statements?_of_statement (lines _) (filled _), one]
    refine Option.bind_eq_some_iff.mpr ⟨_, rfl, Option.bind_eq_some_iff.mpr ⟨_, ended, ?_⟩⟩
    exact Option.bind_eq_some_iff.mpr ⟨others, statements?_frugal _ _ _ _ further shorter, rfl⟩

theorem refills_nextLine {cs left after : List Char} {st : Statement}
    (read : statement? (skipBlanks cs) = some (st, left)) (ended : lineEnd? left = some after)
    (h : Refills v₀ rest .lines after) : Refills v₀ rest .lines cs := by
  obtain ⟨d, rfl, lines⟩ := h
  obtain ⟨c, rfl, ends⟩ := lineEnd?_local.before ended
  obtain ⟨b, start, reads⟩ := statement?_local.before read
  obtain ⟨a, rfl, starts⟩ := skipBlanks_before start
  refine ⟨a, rfl, fun n sts made => ?_⟩
  have filled := fun s => start_of_statement? (reads s)
  cases n with
  | zero => cases made
  | succ n =>
    rw [statements?_of_statement start (filled _), reads] at made
    obtain ⟨_, one, made⟩ := Option.bind_eq_some_iff.mp made
    cases one
    obtain ⟨_, ended', made⟩ := Option.bind_eq_some_iff.mp made
    cases ended.symm.trans ended'
    obtain ⟨others, further, made⟩ := Option.bind_eq_some_iff.mp made
    cases made
    obtain ⟨before, path, key, x, after, p, rfl, holds, each⟩ := lines n others further
    refine ⟨st :: before, path, key, x, after, p, rfl, holds, fun v plain m enough => ?_⟩
    obtain ⟨m, rfl⟩ := Nat.exists_eq_add_one_of_ne_zero (show m ≠ 0 by omega)
    have shorter : (marked (closing v rest) d).length < m := by
      obtain ⟨c, more, same, -⟩ := filled (closing v rest)
      have line := lineEnd?_shorter (same ▸ statement?_local.suffix (reads _)) (ends _)
      have blanks := (starts (closing v rest) ▸ skipBlanks_suffix _).length_le
      rw [← same] at line
      omega
    rw [statements?_of_statement (starts _) (filled _), reads]
    refine Option.bind_eq_some_iff.mpr ⟨_, rfl, Option.bind_eq_some_iff.mpr ⟨_, ends _, ?_⟩⟩
    exact Option.bind_eq_some_iff.mpr ⟨_, each v plain m shorter, rfl⟩

theorem refills_emptyLine {cs more after : List Char} {c : Char} (start : skipBlanks cs = c :: more)
    (empty : c = '#' ∨ c = '\n' ∨ c = '\r') (ended : lineEnd? (c :: more) = some after)
    (h : Refills v₀ rest .lines after) : Refills v₀ rest .lines cs := by
  obtain ⟨d, rfl, lines⟩ := h
  obtain ⟨b, line, ends⟩ := lineEnd?_local.before ended
  obtain ⟨a, rfl, starts⟩ := skipBlanks_before (start.trans line)
  obtain ⟨b, rfl⟩ : ∃ b', b = c :: b' := by
    rcases b with _ | ⟨e, b⟩
    · cases line
      exact absurd empty (by decide)
    · cases line
      exact ⟨b, rfl⟩
  have step : ∀ n s, statements? (n + 1) (marked s a) = statements? n (marked s d) := fun n s => by
    rw [statements?_succ, starts, marked_cons]
    exact (if_pos empty).trans (by rw [← marked_cons, ends]; rfl)
  refine ⟨a, rfl, fun n sts made => ?_⟩
  cases n with
  | zero => cases made
  | succ n =>
    rw [step] at made
    obtain ⟨before, path, key, x, after, p, same, holds, each⟩ := lines n sts made
    refine ⟨before, path, key, x, after, p, same, holds, fun v plain m enough => ?_⟩
    obtain ⟨m, rfl⟩ := Nat.exists_eq_add_one_of_ne_zero (show m ≠ 0 by omega)
    have shorter : (marked (closing v rest) d).length < m := by
      have line : _ < (marked (closing v rest) (c :: b)).length :=
        lineEnd?_shorter List.suffix_rfl (ends (closing v rest))
      have blanks := (starts (closing v rest) ▸ skipBlanks_suffix _).length_le
      omega
    rw [step]
    exact each v plain m shorter

end Steps

/-! ### On the way to the string -/

theorem path?_skipBlanks (cs : List Char) : path? (skipBlanks cs) = path? cs := by
  have same : skipBlanks (skipBlanks cs) = skipBlanks cs := List.dropWhile_idempotent _ _
  rw [path?_eq, path?_eq, show maxDepth = 78 + 1 from rfl, keys?_succ, keys?_succ, same]

variable {target : List Char} {depth : Nat} {cs : List Char}

theorem ComesTo.not_closed (h : ComesTo target (.members depth) cs) : ¬['\x7d'] <+: skipBlanks cs := by
  have keys : ∃ r, path? (skipBlanks cs) = some r := by
    rw [path?_skipBlanks]
    cases h with
    | member keys => exact ⟨_, keys⟩
    | nextMember read =>
      rw [assignment?_eq] at read
      obtain ⟨path, keys, -⟩ := Option.bind_eq_some_iff.mp read
      exact ⟨path, keys⟩
  obtain ⟨r, keys⟩ := keys
  rintro ⟨more, brace⟩
  rw [← brace] at keys
  exact ne_of_path? keys rfl rfl rfl rfl

theorem ComesTo.not_bracket (h : ComesTo ('"' :: target) (.value depth) cs) : ¬[']'] <+: cs := by
  cases h <;> simp

/-- Where reading comes to a plain string, it comes to any other in its place. -/
theorem ComesTo.refills {v₀ : String} {rest : List Char} (plain : Plain v₀)
    (closed : rest.head? ≠ some '"') {part : Part} {cs : List Char}
    (h : ComesTo ('"' :: closing v₀ rest) part cs) : Refills v₀ rest part cs := by
  induction h with
  | here => exact refills_here plain closed
  | array _ ih => exact refills_array ih
  | table inner ih => exact refills_table inner.not_closed ih
  | item inner ih => exact refills_item inner.not_bracket ih
  | nextItem read comma _ ih => exact refills_nextItem read comma ih
  | member keys equals _ ih => exact refills_member keys equals ih
  | nextMember read comma _ ih => exact refills_nextMember read comma ih
  | line keys equals _ ih => exact refills_line keys equals ih
  | nextLine read ended _ ih => exact refills_nextLine read ended ih
  | emptyLine start empty ended _ ih => exact refills_emptyLine start empty ended ih

/-! ### Documents -/

/-- The characters of a text after its byte order mark, if it has one. -/
def unmarked (cs : List Char) : List Char :=
  match cs with
  | '\ufeff' :: rest => rest
  | cs => cs

theorem read?_eq (s : String) : read? s =
    (statements? ((unmarked s.toList).length + 1) (unmarked s.toList)).bind build? := rfl

theorem unmarked_marked (s a : List Char) : unmarked (marked s a) = marked s (unmarked a) := by
  rcases a with _ | ⟨c, a⟩
  · rfl
  · by_cases order : c = '\ufeff'
    · subst order; rfl
    · have plain : ∀ cs, unmarked (c :: cs) = c :: cs := fun cs => by simp [unmarked, order]
      rw [marked_cons, plain, plain, marked_cons]

/-- A text with a string between quotation marks. -/
def quoting (before : List Char) (v : String) (after : List Char) : List Char :=
  before ++ '"' :: (v.toList ++ '"' :: after)

/-- Where the document of a text comes to a string, every other plain string in its place is in one
place of the document, which is the same otherwise. -/
theorem read?_put {before after : List Char} {v₀ : String} {ms : Members} (plain : Plain v₀)
    (closed : after.head? ≠ some '"')
    (value : ComesTo (quoting [] v₀ after) .lines (unmarked (quoting before v₀ after)))
    (made : read? (String.ofList (quoting before v₀ after)) = some ms) :
    ∃ p, ms.Holds p ∧ ∀ v, Plain v →
      read? (String.ofList (quoting before v after)) = some (ms.put v p) := by
  have text : ∀ v, read? (String.ofList (quoting before v after)) =
      (statements? ((marked (closing v after) (unmarked before)).length + 1)
        (marked (closing v after) (unmarked before))).bind build? := fun v => by
    rw [read?_eq, String.toList_ofList, ← unmarked_marked]
    rfl
  obtain ⟨a, start, lines⟩ := ComesTo.refills plain closed value
  obtain rfl : unmarked before = a := marked_inj.mp ((unmarked_marked _ _).symm.trans start)
  rw [text] at made
  obtain ⟨sts, read, built⟩ := Option.bind_eq_some_iff.mp made
  obtain ⟨before', path, key, x, after', q, rfl, holds, each⟩ := lines _ sts (start ▸ read)
  obtain ⟨p, place, put⟩ := build?_put holds built
  refine ⟨p, place, fun v plain => ?_⟩
  rw [text, each v plain _ (Nat.lt_succ_self _)]
  exact put v

end EventPipeline.Toml
