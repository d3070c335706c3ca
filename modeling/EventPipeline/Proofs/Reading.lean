import EventPipeline.Json.Reader

/-! # Readings that succeed

A reading answers a value or the first thing wrong. One that is made of others succeeds exactly when
each of them does, and what an array's or object's reader makes is made of what the readers of its
items make.
-/

namespace EventPipeline

variable {ε α β : Type}

theorem bind_eq_ok {x : Except ε α} {f : α → Except ε β} {b : β} :
    x >>= f = .ok b ↔ ∃ a, x = .ok a ∧ f a = .ok b := by
  constructor
  · intro made
    cases x with
    | error e => cases made
    | ok a => exact ⟨a, rfl, made⟩
  · rintro ⟨a, rfl, made⟩
    exact made

theorem map_eq_ok {x : Except ε α} {f : α → β} {b : β} :
    x.map f = .ok b ↔ ∃ a, x = .ok a ∧ f a = b := by
  constructor
  · intro made
    cases x with
    | error e => cases made
    | ok a =>
      cases made
      exact ⟨a, rfl, rfl⟩
  · rintro ⟨a, rfl, rfl⟩
    rfl

namespace Json

/-- What holds of everything an item's reader makes holds of all items of an array. -/
theorem forall_of_elements {item : Octets → Except Error (α × Octets)} {P : α → Prop}
    (each : ∀ bs v rest, item bs = .ok (v, rest) → P v) {fuel : Nat} {first : Bool} {bs : Octets}
    {vs : List α} {rest : Octets} (made : elements item fuel first bs = .ok (vs, rest)) :
    ∀ v ∈ vs, P v := by
  induction fuel generalizing first bs vs with
  | zero => cases made
  | succ fuel ih =>
    rw [elements, bind_eq_ok] at made
    obtain ⟨next?, -, made⟩ := made
    cases next? with
    | none =>
      cases made
      exact fun v member => absurd member List.not_mem_nil
    | some after =>
      obtain ⟨⟨v, left⟩, one, made⟩ := bind_eq_ok.mp made
      obtain ⟨⟨tail, left'⟩, others, made⟩ := bind_eq_ok.mp made
      cases made
      intro w member
      rcases List.mem_cons.mp member with rfl | later
      · exact each _ _ _ one
      · exact ih others w later

/-- What the reader of one member keeps is kept while all members of an object are read. -/
theorem invariant_of_foldMembers {member : α → String → Octets → Except Error (α × Octets)}
    {I : α → Prop} (each : ∀ s key bs s' rest, I s → member s key bs = .ok (s', rest) → I s')
    {fuel : Nat} {first : Bool} {s : α} {bs : Octets} {s' : α} {rest : Octets} (holds : I s)
    (made : foldMembers member fuel first s bs = .ok (s', rest)) : I s' := by
  induction fuel generalizing first s bs with
  | zero => cases made
  | succ fuel ih =>
    rw [foldMembers, bind_eq_ok] at made
    obtain ⟨next?, -, made⟩ := made
    cases next? with
    | none =>
      cases made
      exact holds
    | some after =>
      obtain ⟨⟨key, left⟩, -, made⟩ := bind_eq_ok.mp made
      obtain ⟨⟨next, left'⟩, one, made⟩ := bind_eq_ok.mp made
      exact ih (each _ _ _ _ _ holds one) made

/-- What holds of everything a value's reader makes holds of all values of an object. -/
theorem forall_of_members {value : Octets → Except Error (α × Octets)} {P : α → Prop}
    (each : ∀ bs v rest, value bs = .ok (v, rest) → P v) {bs : Octets} {ms : List (String × α)}
    {rest : Octets} (made : members value bs = .ok (ms, rest)) : ∀ m ∈ ms, P m.2 := by
  obtain ⟨⟨read, left⟩, folded, same⟩ := map_eq_ok.mp made
  cases same
  have kept : ∀ m ∈ read, P m.2 := by
    refine invariant_of_foldMembers (I := fun made => ∀ m ∈ made, P m.2) ?_
      (fun m member => absurd member List.not_mem_nil) folded
    intro before key bs after rest holds one
    obtain ⟨left, -, one⟩ := bind_eq_ok.mp one
    obtain ⟨⟨v, left'⟩, taken, one⟩ := bind_eq_ok.mp one
    cases one
    intro m member
    rcases List.mem_cons.mp member with rfl | earlier
    · exact each _ _ _ taken
    · exact holds m earlier
  exact fun m member => kept m (List.mem_reverse.mp member)

end Json

end EventPipeline
