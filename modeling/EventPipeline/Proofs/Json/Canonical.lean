import EventPipeline.Proofs.Reading

/-! # Canonical documents

A document is canonical to a depth when its arrays and objects nest at most so deep and the members
of each object stand in increasing order of their keys. These are the documents that a reader makes
(`canonical_of_value`).
-/

namespace EventPipeline.Json

/-- Members in increasing order of their keys, each key standing once. -/
def Sorted (members : List (String × Value)) : Prop := members.Pairwise fun a b => a.1 < b.1

/-- A document whose objects are sorted and that nests at most to the given depth. -/
inductive Value.Canonical : Nat → Value → Prop where
  | null {depth : Nat} : Canonical depth .null
  | boolean {depth : Nat} (b : Bool) : Canonical depth (.boolean b)
  | number {depth : Nat} (n : Number) : Canonical depth (.number n)
  | string {depth : Nat} (s : String) : Canonical depth (.string s)
  | array {depth : Nat} {items : List Value} (each : ∀ v ∈ items, Canonical depth v) :
    Canonical (depth + 1) (.array items)
  | object {depth : Nat} {members : List (String × Value)} (sorted : Sorted members)
    (each : ∀ m ∈ members, Canonical depth m.2) : Canonical (depth + 1) (.object members)

/-! ### Sorted members -/

theorem mem_insertMember {key : String} {value : Value} {members : List (String × Value)}
    {m : String × Value} (member : m ∈ insertMember key value members) :
    m = (key, value) ∨ m ∈ members := by
  induction members with
  | nil => exact .inl (by simpa [insertMember] using member)
  | cons first rest ih =>
    obtain ⟨k, v⟩ := first
    simp only [insertMember] at member
    split at member
    · simpa using member
    · split at member
      · rcases List.mem_cons.mp member with same | later
        · exact .inl same
        · exact .inr (List.mem_cons_of_mem _ later)
      · rcases List.mem_cons.mp member with same | later
        · exact .inr (same ▸ List.mem_cons_self ..)
        · exact (ih later).imp id (List.mem_cons_of_mem _)

theorem sorted_insertMember {members : List (String × Value)} (sorted : Sorted members)
    (key : String) (value : Value) : Sorted (insertMember key value members) := by
  induction members with
  | nil => exact List.pairwise_singleton ..
  | cons first rest ih =>
    obtain ⟨k, v⟩ := first
    obtain ⟨least, tail⟩ := List.pairwise_cons.mp sorted
    simp only [insertMember]
    split
    · next before =>
      refine List.pairwise_cons.mpr ⟨?_, sorted⟩
      intro m member
      rcases List.mem_cons.mp member with rfl | later
      · exact before
      · exact String.lt_trans before (least m later)
    · next notBefore =>
      split
      · next same => exact List.pairwise_cons.mpr ⟨same ▸ least, tail⟩
      · next differ =>
        refine List.pairwise_cons.mpr ⟨?_, ih tail⟩
        intro m member
        rcases mem_insertMember member with rfl | later
        · rcases Std.lt_trichotomy key k with less | equal | greater
          · exact absurd less notBefore
          · exact absurd equal differ
          · exact greater
        · exact least m later

/-- A member whose key comes after all others is put at the end. -/
theorem insertMember_of_greatest {members : List (String × Value)} {key : String}
    (greatest : ∀ m ∈ members, m.1 < key) (value : Value) :
    insertMember key value members = members ++ [(key, value)] := by
  induction members with
  | nil => rfl
  | cons first rest ih =>
    obtain ⟨k, v⟩ := first
    have after := greatest (k, v) (List.mem_cons_self ..)
    have notBefore : ¬ key < k := String.lt_asymm after
    have differ : key ≠ k := fun same => String.lt_irrefl k (same ▸ after)
    rw [insertMember, if_neg notBefore, if_neg differ,
      ih fun m member => greatest m (List.mem_cons_of_mem _ member), List.cons_append]

theorem foldl_insertMember {front members : List (String × Value)}
    (sorted : Sorted (front ++ members)) :
    members.foldl (fun made (key, value) => insertMember key value made) front =
      front ++ members := by
  induction members generalizing front with
  | nil => simp
  | cons m members ih =>
    have greatest : ∀ a ∈ front, a.1 < m.1 := fun a member =>
      (List.pairwise_append.mp sorted).2.2 a member m (List.mem_cons_self ..)
    have placed := insertMember_of_greatest greatest m.2
    change members.foldl _ (insertMember m.1 m.2 front) = _
    rw [placed, ih (by simpa using sorted)]
    simp

/-- Sorting leaves sorted members alone. -/
theorem sortMembers_of_sorted {members : List (String × Value)} (sorted : Sorted members) :
    sortMembers members = members := by
  have sortedAfter : Sorted ([] ++ members) := sorted
  exact foldl_insertMember sortedAfter

theorem sorted_sortMembers (members : List (String × Value)) :
    Sorted (sortMembers members) ∧ ∀ m ∈ sortMembers members, m ∈ members := by
  rw [sortMembers]
  suffices general : ∀ made, Sorted made →
      Sorted (members.foldl (fun made (key, value) => insertMember key value made) made) ∧
      ∀ m ∈ members.foldl (fun made (key, value) => insertMember key value made) made,
        m ∈ made ∨ m ∈ members by
    obtain ⟨sorted, origin⟩ := general [] List.Pairwise.nil
    exact ⟨sorted, fun m member => (origin m member).resolve_left (List.not_mem_nil)⟩
  induction members with
  | nil => exact fun made sorted => ⟨sorted, fun m member => .inl member⟩
  | cons first rest ih =>
    intro made sorted
    obtain ⟨after, origin⟩ := ih _ (sorted_insertMember sorted first.1 first.2)
    refine ⟨after, ?_⟩
    intro m member
    rcases origin m member with inserted | later
    · rcases mem_insertMember inserted with rfl | before
      · exact .inr (List.mem_cons_self ..)
      · exact .inl before
    · exact .inr (List.mem_cons_of_mem _ later)

/-! ### What the reader makes -/

theorem canonical_of_scalar {depth : Nat} {b : UInt8} {bs : Octets} {v : Value} {rest : Octets}
    (made : scalar b bs = .ok (v, rest)) : v.Canonical depth := by
  have word {expected : List Char} {w : Value} {left : Octets} (canonical : w.Canonical depth)
      (made : Json.word expected w left = .ok (v, rest)) : v.Canonical depth := by
    induction expected generalizing left with
    | nil =>
      cases made
      exact canonical
    | cons c cs ih =>
      cases left with
      | nil => cases made
      | cons b left =>
        simp only [Json.word] at made
        split at made
        · exact ih made
        · cases made
  unfold scalar at made
  split at made
  · exact word .null made
  split at made
  · exact word (.boolean true) made
  split at made
  · exact word (.boolean false) made
  split at made
  · obtain ⟨⟨n, left⟩, -, same⟩ := map_eq_ok.mp made
    cases same
    exact .number n
  split at made
  · obtain ⟨⟨n, left⟩, -, same⟩ := map_eq_ok.mp made
    cases same
    exact .number n
  split at made
  · obtain ⟨⟨s, left⟩, -, same⟩ := map_eq_ok.mp made
    cases same
    exact .string s
  · cases made

/-- Every document that is read is canonical to the depth that was allowed. -/
theorem canonical_of_value {depth : Nat} {bs : Octets} {v : Value} {rest : Octets}
    (made : value depth bs = .ok (v, rest)) : v.Canonical depth := by
  induction depth generalizing bs v rest with
  | zero =>
    unfold value at made
    split at made
    · cases made
    split at made
    · cases made
    split at made
    · cases made
    · exact canonical_of_scalar made
  | succ depth ih =>
    unfold value at made
    split at made
    · cases made
    split at made
    · obtain ⟨⟨items, left⟩, inside, same⟩ := map_eq_ok.mp made
      cases same
      exact .array (forall_of_elements (fun _ _ _ => ih) inside)
    split at made
    · obtain ⟨⟨ms, left⟩, inside, same⟩ := map_eq_ok.mp made
      cases same
      have each := forall_of_members (fun _ _ _ => ih) inside
      obtain ⟨sorted, origin⟩ := sorted_sortMembers ms
      exact .object sorted fun m member => each m (origin m member)
    · exact canonical_of_scalar made

end EventPipeline.Json
