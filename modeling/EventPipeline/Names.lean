/-! # Sorted lists of names

A set of names is a list in strictly increasing order. `Names.insert` keeps that order and
`Names.ofList` sorts any list, each name standing once.
-/

namespace EventPipeline.Names

/-- Puts a name in its place; a name that is there already stays alone. -/
def insert (name : String) : List String → List String
  | [] => [name]
  | n :: rest =>
    if name < n then name :: n :: rest
    else if name = n then n :: rest
    else n :: insert name rest

/-- The names of a list in strictly increasing order. -/
def ofList (names : List String) : List String := names.foldr insert []

theorem mem_insert {x name : String} {names : List String} :
    x ∈ insert name names ↔ x = name ∨ x ∈ names := by
  induction names with
  | nil => simp [insert]
  | cons n rest ih =>
    simp only [insert]
    split
    · simp
    · split
      · next same => subst same; simp
      · simp only [List.mem_cons, ih]
        exact or_left_comm

@[simp] theorem mem_ofList {x : String} {names : List String} :
    x ∈ ofList names ↔ x ∈ names := by
  induction names with
  | nil => simp [ofList]
  | cons n rest ih =>
    rw [ofList, List.foldr_cons, mem_insert, List.mem_cons, ← ih, ofList]

theorem pairwise_insert (name : String) {names : List String}
    (increasing : names.Pairwise (· < ·)) : (insert name names).Pairwise (· < ·) := by
  induction names with
  | nil => exact List.pairwise_singleton _ _
  | cons n rest ih =>
    obtain ⟨least, increasing'⟩ := List.pairwise_cons.mp increasing
    rw [insert]
    split
    · next less =>
      refine List.pairwise_cons.mpr ⟨?_, increasing⟩
      intro other mem
      rcases List.mem_cons.mp mem with rfl | later
      · exact less
      · exact String.lt_trans less (least other later)
    · next notLess =>
      split
      · exact increasing
      · next differ =>
        have greater : n < name := by
          have := String.not_lt.mp notLess
          grind
        refine List.pairwise_cons.mpr ⟨?_, ih increasing'⟩
        intro other mem
        rcases mem_insert.mp mem with rfl | later
        · exact greater
        · exact least other later

theorem pairwise_ofList (names : List String) : (ofList names).Pairwise (· < ·) := by
  induction names with
  | nil => exact .nil
  | cons name names ih => exact pairwise_insert name ih

theorem nodup_ofList (names : List String) : (ofList names).Nodup := by
  refine (pairwise_ofList names).imp ?_
  rintro name _ less rfl
  exact String.lt_irrefl name less

/-- A list in increasing order stays as it is. -/
theorem ofList_of_pairwise {names : List String} (increasing : names.Pairwise (· < ·)) :
    ofList names = names := by
  induction names with
  | nil => rfl
  | cons name names ih =>
    obtain ⟨least, increasing'⟩ := List.pairwise_cons.mp increasing
    rw [ofList, List.foldr_cons, ← ofList, ih increasing']
    cases names with
    | nil => rfl
    | cons n rest => rw [insert, if_pos (least n (List.mem_cons_self ..))]

end EventPipeline.Names
