/-! # Tables

A table binds each of finitely many keys to one value. `get?_set_self` and `get?_set_of_ne` say what
a look-up finds after a binding was made.
-/

namespace EventPipeline

/-- Bindings of keys to values; of two bindings of one key the first counts. -/
abbrev Table (κ α : Type) := List (κ × α)

namespace Table

variable {κ α : Type} [DecidableEq κ]

/-- The value bound to a key. -/
def get? (table : Table κ α) (key : κ) : Option α := table.lookup key

/-- Binds a key to a value. -/
def set (table : Table κ α) (key : κ) (value : α) : Table κ α :=
  (key, value) :: table.filter fun binding => binding.1 ≠ key

theorem get?_set_self (table : Table κ α) (key : κ) (value : α) :
    (table.set key value).get? key = some value := by
  simp [get?, set]

theorem get?_set_of_ne (table : Table κ α) {key other : κ} (value : α) (h : other ≠ key) :
    (table.set key value).get? other = table.get? other := by
  have unaffected : (table.filter fun b => b.1 ≠ key).lookup other = table.lookup other := by
    induction table with
    | nil => rfl
    | cons binding rest ih =>
      obtain ⟨k, v⟩ := binding
      rw [List.filter_cons, List.lookup_cons]
      by_cases hk : k = key
      · simpa [hk, beq_false_of_ne h] using ih
      · cases same : other == k
        · simpa [hk, List.lookup_cons, same] using ih
        · simp [hk, List.lookup_cons, same]
  simpa [get?, set, List.lookup_cons, beq_false_of_ne h] using unaffected

end Table

end EventPipeline
