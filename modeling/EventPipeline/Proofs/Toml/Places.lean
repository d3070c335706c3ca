import Mathlib.Tactic.SplitIfs
import EventPipeline.Toml.Reader

/-! # Places in a document

A place leads from a document to one of its strings, by keys through tables and by indices through
arrays. `put` has another string there. The functions that fill a table treat what is already in it
alike whatever its strings are: they fill the table with the other string in the same way, and the
place leads to it afterwards as before (`Steady`). A value that is put into a table with another string
in it gives the same table with another string in it (`Lands`).
-/

namespace EventPipeline.Toml

/-- A step into a value. -/
inductive Step where
  /-- To the member of a table with a key. -/
  | key (k : String)
  /-- To an item of an array. -/
  | item (i : Nat)
  deriving DecidableEq

/-- The steps that lead to a place in a value. -/
abbrev Place := List Step

/-- The members with a changed value for a key. -/
def Members.change (k : String) (f : Value → Value) (ms : Members) : Members :=
  ms.map fun m => if m.1 = k then (m.1, f m.2) else m

/-- A value with a string at a place. -/
def Value.put (s : String) : Place → Value → Value
  | [], _ => .string s
  | .key k :: p, .table origin ms => .table origin (Members.change k (Value.put s p) ms)
  | .item i :: p, .array grows items => .array grows (items.modify i (Value.put s p))
  | _ :: _, x => x

/-- A place leads to a string. -/
def Value.Holds : Place → Value → Prop
  | [], x => ∃ s, x = .string s
  | .key k :: p, .table _ ms => (∃ x, (k, x) ∈ ms) ∧ ∀ x, (k, x) ∈ ms → Value.Holds p x
  | .item i :: p, .array _ items => ∃ x, items[i]? = some x ∧ Value.Holds p x
  | _ :: _, _ => False

namespace Members

/-- Members with a string at a place. -/
def put (s : String) (p : Place) (ms : Members) : Members :=
  match p with
  | .key k :: p => change k (Value.put s p) ms
  | _ => ms

/-- A place leads to a string in one of the members. -/
def Holds (p : Place) (ms : Members) : Prop :=
  match p with
  | .key k :: p => (∃ x, (k, x) ∈ ms) ∧ ∀ x, (k, x) ∈ ms → Value.Holds p x
  | _ => False

end Members

theorem Value.holds_table {p : Place} {origin : Origin} {ms : Members} :
    Value.Holds p (.table origin ms) ↔ Members.Holds p ms := by
  rcases p with _ | ⟨k | i, p⟩
  · simp [Value.Holds, Members.Holds]
  · rfl
  · rfl

theorem Value.put_table {p : Place} {ms : Members} (h : Members.Holds p ms) (s : String)
    (origin : Origin) : Value.put s p (.table origin ms) = .table origin (Members.put s p ms) := by
  rcases p with _ | ⟨k | i, p⟩
  · exact h.elim
  · rfl
  · exact h.elim

namespace Members

variable {ms ms' : Members} {k key : String} {x : Value} {f g : Value → Value} {p : Place}

/-! ### Changed members -/

theorem get?_cons (key other : String) (x : Value) (ms : Members) :
    get? ((other, x) :: ms) key = if key = other then some x else get? ms key := by
  by_cases same : key = other
  · simp [get?, same]
  · simp [get?, List.lookup_cons, beq_false_of_ne same, same]

theorem mem_of_get? (h : get? ms key = some x) : (key, x) ∈ ms := by
  induction ms with
  | nil => cases h
  | cons m ms ih =>
    obtain ⟨other, y⟩ := m
    rw [get?_cons] at h
    split_ifs at h with same
    · cases h
      rw [same]
      exact List.mem_cons_self
    · exact List.mem_cons_of_mem _ (ih h)

theorem absent_of_get? (h : get? ms key = none) (x : Value) : (key, x) ∉ ms := by
  induction ms with
  | nil => exact List.not_mem_nil
  | cons m ms ih =>
    obtain ⟨other, y⟩ := m
    rw [get?_cons] at h
    split_ifs at h with same
    intro member
    rcases List.mem_cons.mp member with here | later
    · exact same (congrArg Prod.fst here)
    · exact ih h later

theorem get?_change (k key : String) (f : Value → Value) (ms : Members) :
    get? (change k f ms) key = (get? ms key).map fun x => if key = k then f x else x := by
  induction ms with
  | nil => rfl
  | cons m ms ih =>
    obtain ⟨other, x⟩ := m
    have step : change k f ((other, x) :: ms) =
        (other, if other = k then f x else x) :: change k f ms := by
      simp only [change, List.map_cons]
      split_ifs <;> rfl
    rw [step, get?_cons, get?_cons, ih]
    split_ifs with same <;> simp_all

theorem mem_change : (key, x) ∈ change k f ms ↔
    ∃ y, (key, y) ∈ ms ∧ (if key = k then f y else y) = x := by
  simp only [change, List.mem_map]
  constructor
  · rintro ⟨⟨other, y⟩, member, same⟩
    split_ifs at same with here <;> obtain ⟨rfl, rfl⟩ := Prod.mk.inj same
    · exact ⟨y, member, if_pos here⟩
    · exact ⟨y, member, if_neg here⟩
  · rintro ⟨y, member, rfl⟩
    refine ⟨(key, y), member, ?_⟩
    split_ifs <;> rfl

theorem change_append (k : String) (f : Value → Value) (ms ms' : Members) :
    change k f (ms ++ ms') = change k f ms ++ change k f ms' := List.map_append

theorem change_change (k : String) (f g : Value → Value) (ms : Members) :
    change k f (change k g ms) = change k (fun x => f (g x)) ms := by
  simp only [change, List.map_map]
  congr 1
  funext m
  simp only [Function.comp]
  split_ifs <;> rfl

theorem change_comm (h : key ≠ k) (f g : Value → Value) (ms : Members) :
    change k f (change key g ms) = change key g (change k f ms) := by
  simp only [change, List.map_map]
  congr 1
  funext m
  simp only [Function.comp]
  split_ifs <;> simp_all

theorem change_of_absent (h : ∀ x, (k, x) ∉ ms) (f : Value → Value) : change k f ms = ms := by
  have same : change k f ms = ms.map id := List.map_congr_left fun m member =>
    if_neg fun here : m.1 = k => h m.2 (here ▸ member)
  rw [same, List.map_id]

theorem replace_eq (ms : Members) (key : String) (x : Value) :
    replace ms key x = change key (fun _ => x) ms := by
  simp only [replace, change]
  congr 1
  funext m
  split_ifs with same
  · rw [← same]
  · rfl

theorem put_key (s : String) (k : String) (p : Place) (ms : Members) :
    put s (.key k :: p) ms = change k (Value.put s p) ms := rfl

theorem Holds.get? (h : Holds (.key k :: p) ms) (found : get? ms k = some x) : Value.Holds p x :=
  h.2 x (mem_of_get? found)

theorem get?_put_self (found : get? ms k = some x) (s : String) :
    get? (put s (.key k :: p) ms) k = some (Value.put s p x) := by
  rw [put_key, get?_change, found]
  simp

theorem get?_put_of_ne (h : key ≠ k) (s : String) :
    get? (put s (.key k :: p) ms) key = get? ms key := by
  rw [put_key, get?_change]
  simp [h]

/-- A member that is added is another than the one that a place leads through. -/
theorem Holds.ne (h : Holds (.key k :: p) ms) (absent : Members.get? ms key = none) : key ≠ k := by
  rintro rfl
  obtain ⟨x, member⟩ := h.1
  exact absent_of_get? absent x member

theorem Holds.append (h : Holds (.key k :: p) ms) (other : key ≠ k) :
    Holds (.key k :: p) (ms ++ [(key, x)]) := by
  obtain ⟨⟨y, member⟩, each⟩ := h
  refine ⟨⟨y, List.mem_append_left _ member⟩, fun z found => ?_⟩
  rcases List.mem_append.mp found with earlier | last
  · exact each z earlier
  · rw [List.mem_singleton] at last
    exact absurd (congrArg Prod.fst last).symm other

theorem put_append (other : key ≠ k) (s : String) :
    put s (.key k :: p) (ms ++ [(key, x)]) = put s (.key k :: p) ms ++ [(key, x)] := by
  rw [put_key, change_append, put_key]
  simp [change, other]

/-- A way to change the value of a key, with the others left as they are. -/
structure Stores (store : Members → String → Value → Members) : Prop where
  holds_of_ne : ∀ {k key p ms} (x), key ≠ k → Holds (.key k :: p) ms → Holds (.key k :: p) (store ms key x)
  put_of_ne : ∀ {k key p} (s ms x), key ≠ k →
    put s (.key k :: p) (store ms key x) = store (put s (.key k :: p) ms) key x
  holds_self : ∀ {k p ms x}, Value.Holds p x → (∃ y, (k, y) ∈ ms) → Holds (.key k :: p) (store ms k x)
  put_self : ∀ {k p} (s ms x),
    put s (.key k :: p) (store ms k x) = store (put s (.key k :: p) ms) k (Value.put s p x)

theorem replace_stores : Stores replace where
  holds_of_ne {k key p ms} x other h := by
    rw [replace_eq]
    obtain ⟨⟨y, member⟩, each⟩ := h
    refine ⟨⟨y, mem_change.mpr ⟨y, member, if_neg other.symm⟩⟩, fun z found => ?_⟩
    obtain ⟨w, member, same⟩ := mem_change.mp found
    rw [if_neg other.symm] at same
    exact each z (same ▸ member)
  put_of_ne s ms x other := by
    rw [replace_eq, replace_eq, put_key, put_key, change_comm other]
  holds_self {k p ms x} h found := by
    rw [replace_eq]
    obtain ⟨y, member⟩ := found
    refine ⟨⟨x, mem_change.mpr ⟨y, member, if_pos rfl⟩⟩, fun z found => ?_⟩
    obtain ⟨w, -, same⟩ := mem_change.mp found
    rw [if_pos rfl] at same
    exact same ▸ h
  put_self s ms x := by
    rw [replace_eq, replace_eq, put_key, put_key, change_change, change_change]

/-- The members with another value for a key, which is now the last. -/
def relocate (ms : Members) (key : String) (x : Value) : Members := erase ms key ++ [(key, x)]

theorem mem_relocate {y : Value} : (k, y) ∈ relocate ms key x ↔
    (k, y) ∈ ms ∧ k ≠ key ∨ k = key ∧ y = x := by
  simp [relocate, erase]

theorem change_relocate (k key : String) (f : Value → Value) (ms : Members) (x : Value) :
    change k f (relocate ms key x) =
      relocate (change k f ms) key (if key = k then f x else x) := by
  have erased : change k f (erase ms key) = erase (change k f ms) key := by
    simp only [erase, change, List.filter_map]
    congr 1
    refine List.filter_congr fun m _ => ?_
    simp only [Function.comp]
    split_ifs <;> rfl
  rw [relocate, change_append, erased, relocate]
  congr 1
  simp only [change, List.map_cons, List.map_nil]
  split_ifs <;> rfl

theorem relocate_stores : Stores relocate where
  holds_of_ne {k key p ms} x other h := by
    obtain ⟨⟨y, member⟩, each⟩ := h
    refine ⟨⟨y, mem_relocate.mpr (.inl ⟨member, other.symm⟩)⟩, fun z found => ?_⟩
    rcases mem_relocate.mp found with ⟨member, -⟩ | ⟨same, -⟩
    · exact each z member
    · exact absurd same.symm other
  put_of_ne s ms x other := by rw [put_key, put_key, change_relocate, if_neg other]
  holds_self {k p ms x} h _ := by
    refine ⟨⟨x, mem_relocate.mpr (.inr ⟨rfl, rfl⟩)⟩, fun z found => ?_⟩
    rcases mem_relocate.mp found with ⟨-, other⟩ | ⟨-, rfl⟩
    · exact absurd rfl other
    · exact h
  put_self s ms x := by rw [put_key, put_key, change_relocate, if_pos rfl]

/-! ### Filling tables that have a place in them -/

/-- A function on members that treats them alike whatever a string in them is. -/
def Steady (fill : Members → Option Members) : Prop :=
  ∀ p ms, Holds p ms → (∀ s, fill (put s p ms) = (fill ms).map (put s p)) ∧
    ∀ ms', fill ms = some ms' → Holds p ms'

/-- The same for a function on values. -/
def SteadyValue (enter : Value → Option Value) : Prop :=
  ∀ p x, Value.Holds p x → (∀ s, enter (Value.put s p x) = (enter x).map (Value.put s p)) ∧
    ∀ x', enter x = some x' → Value.Holds p x'

/-- Gives a key its first value, or changes its value. -/
def revise (store : Members → String → Value → Members) (first? : Option Value)
    (enter : Value → Option Value) (key : String) (ms : Members) : Option Members :=
  match get? ms key with
  | none => first?.map fun x => ms ++ [(key, x)]
  | some x => (enter x).map fun x => store ms key x

theorem revise_steady {store : Members → String → Value → Members} (stores : Stores store)
    (first? : Option Value) {enter : Value → Option Value} (h : SteadyValue enter) (key : String) :
    Steady (revise store first? enter key) := by
  intro p ms holds
  obtain ⟨k, p, rfl⟩ : ∃ k q, p = .key k :: q := by
    rcases p with _ | ⟨k | i, p⟩
    · exact holds.elim
    · exact ⟨k, p, rfl⟩
    · exact holds.elim
  cases found : get? ms key with
  | none =>
    have other := holds.ne found
    refine ⟨fun s => ?_, fun ms' made => ?_⟩
    · simp only [revise, get?_put_of_ne other, found, Option.map_map]
      congr 1
      funext x
      exact (put_append other s).symm
    · simp only [revise, found] at made
      obtain ⟨x, -, rfl⟩ := Option.map_eq_some_iff.mp made
      exact holds.append other
  | some x =>
    by_cases other : key = k
    · subst other
      obtain ⟨same, kept⟩ := h p x (holds.get? found)
      refine ⟨fun s => ?_, fun ms' made => ?_⟩
      · simp only [revise, get?_put_self found, found, same, Option.map_map]
        congr 1
        funext y
        exact (stores.put_self s ms y).symm
      · simp only [revise, found] at made
        obtain ⟨y, entered, rfl⟩ := Option.map_eq_some_iff.mp made
        exact stores.holds_self (kept y entered) ⟨x, mem_of_get? found⟩
    · refine ⟨fun s => ?_, fun ms' made => ?_⟩
      · simp only [revise, get?_put_of_ne other, found, Option.map_map]
        congr 1
        funext y
        exact (stores.put_of_ne s ms y other).symm
      · simp only [revise, found] at made
        obtain ⟨y, -, rfl⟩ := Option.map_eq_some_iff.mp made
        exact stores.holds_of_ne y other holds

/-- Fills the table that a value is. -/
def enterTable (opens : Origin → Bool) (fill : Members → Option Members) : Value → Option Value
  | .table origin inner => if opens origin then (fill inner).map (.table origin) else none
  | _ => none

theorem enterTable_steady (opens : Origin → Bool) {fill : Members → Option Members}
    (h : Steady fill) : SteadyValue (enterTable opens fill) := by
  intro p x holds
  cases x with
  | table origin inner =>
    rw [Value.holds_table] at holds
    obtain ⟨same, kept⟩ := h p inner holds
    refine ⟨fun s => ?_, fun x' made => ?_⟩
    · rw [Value.put_table holds]
      simp only [enterTable, same]
      split
      · cases filled : fill inner with
        | none => rfl
        | some inner' => simp only [Option.map_some, Value.put_table (kept inner' filled)]
      · rfl
    · simp only [enterTable, Option.ite_none_right_eq_some, Option.map_eq_some_iff] at made
      obtain ⟨-, inner', filled, rfl⟩ := made
      exact Value.holds_table.mpr (kept inner' filled)
  | string | integer | float | boolean | moment | array =>
    refine ⟨fun s => ?_, fun _ made => by cases made⟩
    rcases p with _ | ⟨k | i, p⟩ <;> rfl

/-! ### The last table of an array -/

theorem modify_concat_of_lt {α : Type} {init : List α} {i : Nat} (inside : i < init.length)
    (f : α → α) (x : α) : (init ++ [x]).modify i f = init.modify i f ++ [x] := by
  induction init generalizing i with
  | nil => cases inside
  | cons y init ih =>
    cases i with
    | zero => rfl
    | succ i => simpa using ih (Nat.lt_of_succ_lt_succ inside)

theorem modify_concat_last {α : Type} (init : List α) (f : α → α) (x : α) :
    (init ++ [x]).modify init.length f = init ++ [f x] := by
  induction init with
  | nil => rfl
  | cons y init ih => simpa using ih

/-- A place in the items of an array is in the last or in one before it. -/
theorem holds_concat {i : Nat} {grown : Bool} {init : List Value} {x : Value} :
    Value.Holds (.item i :: p) (.array grown (init ++ [x])) ↔
      i < init.length ∧ Value.Holds (.item i :: p) (.array grown init) ∨
        i = init.length ∧ Value.Holds p x := by
  simp only [Value.Holds]
  constructor
  · rintro ⟨y, found, holds⟩
    rcases Nat.lt_trichotomy i init.length with inside | rfl | beyond
    · rw [List.getElem?_append_left inside] at found
      exact .inl ⟨inside, y, found, holds⟩
    · rw [List.getElem?_concat_length] at found
      cases found
      exact .inr ⟨rfl, holds⟩
    · rw [List.getElem?_eq_none (by rw [List.length_append, List.length_singleton]; omega)] at found
      cases found
  · rintro (⟨inside, y, found, holds⟩ | ⟨rfl, holds⟩)
    · exact ⟨y, by rw [List.getElem?_append_left inside, found], holds⟩
    · exact ⟨x, List.getElem?_concat_length, holds⟩

theorem inLast_concat (fill : Members → Option Members) (init : List Value) (x : Value) :
    inLast fill (init ++ [x]) =
      (enterTable (fun _ => true) fill x).map fun x => init ++ [x] := by
  simp only [inLast, List.getLast?_concat, List.dropLast_concat]
  cases x with
  | table origin inner => cases filled : fill inner <;> simp [enterTable, filled]
  | _ => rfl

theorem inLast_steady {fill : Members → Option Members} (h : Steady fill) {i : Nat} {p : Place}
    {items : List Value} (holds : Value.Holds (.item i :: p) (.array true items)) :
    (∀ s, inLast fill (items.modify i (Value.put s p)) =
      (inLast fill items).map fun items => items.modify i (Value.put s p)) ∧
    ∀ items', inLast fill items = some items' → Value.Holds (.item i :: p) (.array true items') := by
  rcases List.eq_nil_or_concat items with rfl | ⟨init, x, concat⟩
  · exact absurd holds (by simp [Value.Holds])
  · obtain rfl : items = init ++ [x] := by rw [concat, List.concat_eq_append]
    rw [holds_concat] at holds
    rcases holds with ⟨inside, holds⟩ | ⟨rfl, holds⟩
    · refine ⟨fun s => ?_, fun items' made => ?_⟩
      · rw [modify_concat_of_lt inside, inLast_concat, inLast_concat, Option.map_map]
        congr 1
        funext y
        exact (modify_concat_of_lt inside _ y).symm
      · rw [inLast_concat, Option.map_eq_some_iff] at made
        obtain ⟨y, -, rfl⟩ := made
        exact holds_concat.mpr (.inl ⟨inside, holds⟩)
    · obtain ⟨same, kept⟩ := enterTable_steady (fun _ => true) h p x holds
      refine ⟨fun s => ?_, fun items' made => ?_⟩
      · rw [modify_concat_last, inLast_concat, inLast_concat, same, Option.map_map, Option.map_map]
        congr 1
        funext y
        exact (modify_concat_last init _ y).symm
      · rw [inLast_concat, Option.map_eq_some_iff] at made
        obtain ⟨y, entered, rfl⟩ := made
        exact holds_concat.mpr (.inr ⟨rfl, kept y entered⟩)

/-- Fills the table that a value is, or the last one in an array of tables. -/
def enter (opens : Origin → Bool) (grows : Bool) (fill : Members → Option Members) (x : Value) :
    Option Value :=
  match x with
  | .array true items => if grows then (inLast fill items).map (.array true) else none
  | x => enterTable opens fill x

theorem enter_steady (opens : Origin → Bool) (grows : Bool) {fill : Members → Option Members}
    (h : Steady fill) : SteadyValue (enter opens grows fill) := by
  have table := enterTable_steady opens h
  intro p x holds
  cases x with
  | array grown items =>
    obtain ⟨i, p, rfl⟩ : ∃ i q, p = .item i :: q := by
      rcases p with _ | ⟨k | i, p⟩
      · simp [Value.Holds] at holds
      · exact holds.elim
      · exact ⟨i, p, rfl⟩
    cases grown with
    | false => exact table _ _ holds
    | true =>
      obtain ⟨same, kept⟩ := inLast_steady h holds
      refine ⟨fun s => ?_, fun x' made => ?_⟩
      · simp only [Value.put, enter, same]
        split
        · cases inLast fill items <;> rfl
        · rfl
      · simp only [enter, Option.ite_none_right_eq_some, Option.map_eq_some_iff] at made
        obtain ⟨-, items', filled, rfl⟩ := made
        exact kept items' filled
  | table | string | integer | float | boolean | moment =>
    rcases p with _ | ⟨k | i, p⟩ <;> exact table _ _ holds

/-! ### The functions that fill a table -/

theorem assign_nil (v : Value) (key : String) :
    assign v key [] = revise replace (some v) (fun _ => none) key := by
  funext ms
  simp only [assign, revise]
  cases get? ms key <;> rfl

theorem assign_cons (v : Value) (key step : String) (path : List String) :
    assign v key (step :: path) = revise replace ((assign v key path []).map (.table .dotted))
      (enter (fun origin => origin.opensToKey path.isEmpty) (!path.isEmpty) (assign v key path)) step := by
  funext ms
  rw [assign, revise]
  rcases found : get? ms step with _ | x
  · rw [Option.map_map]
    rfl
  · rcases x with _ | _ | _ | _ | _ | ⟨_ | _, items⟩ | ⟨origin, inner⟩
    case array.true =>
      cases path with
      | nil => rfl
      | cons =>
        simp only [enter, List.isEmpty_cons, Bool.not_false, if_true, Option.map_map]
        rfl
    case table =>
      simp only [enter, enterTable]
      split <;> simp [Function.comp_def]
    all_goals rfl

theorem within_cons (change : Members → Option Members) (step : String) (path : List String) :
    within change (step :: path) = revise replace ((within change path []).map (.table .implied))
      (enter (fun origin => origin ≠ .inline) true (within change path)) step := by
  funext ms
  rw [within, revise]
  rcases found : get? ms step with _ | x
  · rw [Option.map_map]
    rfl
  · rcases x with _ | _ | _ | _ | _ | ⟨_ | _, items⟩ | ⟨origin, inner⟩
    case array.true =>
      simp only [enter, if_true, Option.map_map]
      rfl
    case table => cases origin <;> simp [enter, enterTable, Function.comp_def]
    all_goals rfl

/-- Adds a table to an array of tables. -/
def grow : Value → Option Value
  | .array true items => some (.array true (items ++ [.table .declared []]))
  | _ => none

theorem extend_eq (key : String) :
    extend key = revise replace (some (.array true [.table .declared []])) grow key := by
  funext ms
  rw [extend, revise]
  rcases found : get? ms key with _ | x
  · rfl
  · rcases x with _ | _ | _ | _ | _ | ⟨_ | _, items⟩ | ⟨origin, inner⟩ <;> rfl

theorem grow_steady : SteadyValue grow := by
  intro p x holds
  rcases p with _ | ⟨k | i, p⟩
  · obtain ⟨text, rfl⟩ := holds
    exact ⟨fun _ => rfl, fun _ made => by cases made⟩
  · rcases x with _ | _ | _ | _ | _ | _ | _
    case table => exact ⟨fun _ => rfl, fun _ made => by cases made⟩
    all_goals exact holds.elim
  · rcases x with _ | _ | _ | _ | _ | ⟨_ | _, items⟩ | _
    case array.false => exact ⟨fun _ => rfl, fun _ made => by cases made⟩
    case array.true =>
      have inside : i < items.length := by
        obtain ⟨y, found, -⟩ := holds
        exact (List.getElem?_eq_some_iff.mp found).1
      refine ⟨fun s => ?_, fun x' made => ?_⟩
      · simp only [Value.put, grow, Option.map_some, modify_concat_of_lt inside]
      · cases made
        exact holds_concat.mpr (.inl ⟨inside, holds⟩)
    all_goals exact holds.elim

theorem assign_steady (v : Value) (key : String) (path : List String) : Steady (assign v key path) := by
  induction path with
  | nil =>
    rw [assign_nil]
    exact revise_steady replace_stores _ (fun p x _ => ⟨fun _ => rfl, fun _ made => by cases made⟩) key
  | cons step path ih =>
    rw [assign_cons]
    exact revise_steady replace_stores _ (enter_steady _ _ ih) step

theorem within_steady {change : Members → Option Members} (h : Steady change) (path : List String) :
    Steady (within change path) := by
  induction path with
  | nil => exact h
  | cons step path ih =>
    rw [within_cons]
    exact revise_steady replace_stores _ (enter_steady _ _ ih) step

theorem extend_steady (key : String) : Steady (extend key) := by
  rw [extend_eq]
  exact revise_steady replace_stores _ grow_steady key

/-- Gives a table that was only implied a header of its own. -/
def promote : Value → Option Value
  | .table .implied inner => some (.table .declared inner)
  | _ => none

theorem declare_eq (key : String) :
    declare key = revise relocate (some (.table .declared [])) promote key := by
  funext ms
  rw [declare, revise]
  rcases found : get? ms key with _ | x
  · rfl
  · rcases x with _ | _ | _ | _ | _ | _ | ⟨_ | _ | _ | _, inner⟩ <;> rfl

theorem promote_steady : SteadyValue promote := by
  intro p x holds
  rcases x with _ | _ | _ | _ | _ | _ | ⟨_ | _ | _ | _, inner⟩
  case table.implied =>
    rw [Value.holds_table] at holds
    refine ⟨fun s => ?_, fun x' made => ?_⟩
    · rw [Value.put_table holds]
      exact congrArg some (Value.put_table holds s .declared).symm
    · cases made
      exact Value.holds_table.mpr holds
  all_goals
    refine ⟨fun s => ?_, fun _ made => by cases made⟩
    rcases p with _ | ⟨k | i, p⟩ <;> rfl

theorem declare_steady (key : String) : Steady (declare key) := by
  rw [declare_eq]
  exact revise_steady relocate_stores _ promote_steady key

/-! ### Filling tables with a value that has a place in it -/

/-- A value made of another has a place where that one has it. -/
def Follows (make : Value → Option Value) : Prop :=
  ∀ q y x, Value.Holds q y → make y = some x →
    ∃ p, Value.Holds p x ∧ ∀ s, make (Value.put s q y) = some (Value.put s p x)

/-- Members that are filled with a value have a place where the value has it. -/
def Lands (fill : Value → Members → Option Members) : Prop :=
  ∀ q y ms ms', Value.Holds q y → fill y ms = some ms' →
    ∃ p, Holds p ms' ∧ ∀ s, fill (Value.put s q y) ms = some (put s p ms')

theorem Lands.table {fill : Value → Members → Option Members} (h : Lands fill) (ms : Members)
    (origin : Origin) : Follows fun y => (fill y ms).map (.table origin) := by
  intro q y x holds made
  obtain ⟨ms', filled, rfl⟩ := Option.map_eq_some_iff.mp made
  obtain ⟨p, place, each⟩ := h q y ms ms' holds filled
  refine ⟨p, Value.holds_table.mpr place, fun s => ?_⟩
  simp only [each s, Option.map_some, Value.put_table place]

theorem revise_lands {first? : Value → Option Value} {enter : Value → Value → Option Value}
    (first : Follows first?) (entered : ∀ x, Follows fun y => enter y x) (key : String) :
    Lands fun y => revise replace (first? y) (enter y) key := by
  intro q y ms ms' holds made
  cases found : get? ms key with
  | none =>
    simp only [revise, found] at made
    obtain ⟨x, given, rfl⟩ := Option.map_eq_some_iff.mp made
    obtain ⟨p, place, each⟩ := first q y x holds given
    have absent := absent_of_get? found
    refine ⟨.key key :: p, ⟨⟨x, by simp⟩, fun z member => ?_⟩, fun s => ?_⟩
    · rcases List.mem_append.mp member with earlier | last
      · exact absurd earlier (absent z)
      · cases List.mem_singleton.mp last
        exact place
    · simp only [revise, found, each s, Option.map_some, put_key, change_append,
        change_of_absent absent]
      simp [change]
  | some x₀ =>
    simp only [revise, found] at made
    obtain ⟨x, given, rfl⟩ := Option.map_eq_some_iff.mp made
    obtain ⟨p, place, each⟩ := entered x₀ q y x holds given
    refine ⟨.key key :: p, replace_stores.holds_self place ⟨x₀, mem_of_get? found⟩, fun s => ?_⟩
    simp only [revise, found, each s, Option.map_some, put_key, replace_eq, change_change]

theorem inLast_lands {fill : Value → Members → Option Members} (h : Lands fill)
    (items : List Value) : Follows fun y => (inLast (fill y) items).map (.array true) := by
  intro q y x holds made
  obtain ⟨items', filled, rfl⟩ := Option.map_eq_some_iff.mp made
  rcases List.eq_nil_or_concat items with rfl | ⟨init, last, concat⟩
  · cases filled
  · obtain rfl : items = init ++ [last] := by rw [concat, List.concat_eq_append]
    rw [inLast_concat, Option.map_eq_some_iff] at filled
    obtain ⟨x, entered, rfl⟩ := filled
    cases last with
    | table origin inner =>
      obtain ⟨p, place, each⟩ := h.table inner origin q y x holds entered
      refine ⟨.item init.length :: p, holds_concat.mpr (.inr ⟨rfl, place⟩), fun s => ?_⟩
      have entered' : enterTable (fun _ => true) (fill (Value.put s q y)) (.table origin inner) =
          some (Value.put s p x) := each s
      simp only [inLast_concat, entered', Option.map_some, Value.put, modify_concat_last]
    | string | integer | float | boolean | moment | array => cases entered

theorem enter_lands (opens : Origin → Bool) (grows : Bool)
    {fill : Value → Members → Option Members} (h : Lands fill) (x : Value) :
    Follows fun y => enter opens grows (fill y) x := by
  have fails : Follows fun _ => none := fun _ _ _ _ made => by cases made
  rcases x with _ | _ | _ | _ | _ | ⟨_ | _, items⟩ | ⟨origin, inner⟩
  case array.true =>
    cases grows with
    | false => exact fails
    | true => exact inLast_lands h items
  case table =>
    cases opened : opens origin with
    | false => simpa only [enter, enterTable, opened, Bool.false_eq_true, if_false] using fails
    | true => simpa only [enter, enterTable, opened, if_true] using h.table inner origin
  all_goals exact fails

theorem assign_lands (key : String) (path : List String) : Lands fun v => assign v key path := by
  induction path with
  | nil =>
    simp only [assign_nil]
    exact revise_lands (fun q y x holds made => ⟨q, by cases made; exact holds, fun s => by cases made; rfl⟩)
      (fun _ _ _ _ _ made => by cases made) key
  | cons step path ih =>
    simp only [assign_cons]
    exact revise_lands (ih.table [] .dotted) (enter_lands _ _ ih) step

theorem within_lands {fill : Value → Members → Option Members} (h : Lands fill)
    (path : List String) : Lands fun v => within (fill v) path := by
  induction path with
  | nil => exact h
  | cons step path ih =>
    simp only [within_cons]
    exact revise_lands (ih.table [] .implied) (enter_lands _ _ ih) step

end Members

/-! ### Documents -/

/-- A document being put together with a string at a place. -/
def Building.put (s : String) (p : Place) (b : Building) : Building :=
  { b with root := b.root.put s p }

/-- What a statement does to the root of a document whose last header is at `current`. -/
def Statement.fill (current : List String) : Statement → Members → Option Members
  | .assign path key v => Members.within (Members.assign v key path) current
  | .table path key => Members.within (Members.declare key) path
  | .item path key => Members.within (Members.extend key) path

/-- The keys that lead to the table of the last header after a statement. -/
def Statement.next (current : List String) : Statement → List String
  | .assign .. => current
  | .table path key | .item path key => path ++ [key]

theorem Building.add?_eq (b : Building) (st : Statement) :
    b.add? st = (st.fill b.current b.root).map fun root => ⟨root, st.next b.current⟩ := by
  cases st <;> rfl

theorem Statement.fill_steady (current : List String) (st : Statement) :
    Members.Steady (st.fill current) := by
  cases st with
  | assign path key v => exact Members.within_steady (Members.assign_steady v key path) current
  | table path key => exact Members.within_steady (Members.declare_steady key) path
  | item path key => exact Members.within_steady (Members.extend_steady key) path

theorem Building.add?_put (st : Statement) {b : Building} {p : Place} (h : b.root.Holds p) (s : String) :
    (b.put s p).add? st = (b.add? st).map (Building.put s p) := by
  have same := (st.fill_steady b.current p b.root h).1 s
  rw [add?_eq, add?_eq, Option.map_map]
  simp only [Building.put, same, Option.map_map]
  rfl

theorem Building.holds_of_add? {st : Statement} {b b' : Building} {p : Place} (h : b.root.Holds p)
    (made : b.add? st = some b') : b'.root.Holds p := by
  rw [add?_eq, Option.map_eq_some_iff] at made
  obtain ⟨root, filled, rfl⟩ := made
  exact (st.fill_steady b.current p b.root h).2 root filled

/-- Statements after it leave a string in its place, whatever string it is. -/
theorem Building.foldlM_put {sts : List Statement} {b b' : Building} {p : Place} (h : b.root.Holds p)
    (made : sts.foldlM Building.add? b = some b') :
    b'.root.Holds p ∧ ∀ s, sts.foldlM Building.add? (b.put s p) = some (b'.put s p) := by
  induction sts generalizing b with
  | nil =>
    cases made
    exact ⟨h, fun _ => rfl⟩
  | cons st sts ih =>
    obtain ⟨next, added, made⟩ := Option.bind_eq_some_iff.mp made
    obtain ⟨place, each⟩ := ih (holds_of_add? h added) made
    refine ⟨place, fun s => ?_⟩
    rw [List.foldlM_cons, add?_put st h, added]
    exact each s

/-- A document in which a string of one statement is another is the document with that string in one
place. -/
theorem build?_put {before after : List Statement} {path : List String} {key : String} {x : Value}
    {q : Place} {ms : Members} (holds : x.Holds q)
    (made : build? (before ++ .assign path key x :: after) = some ms) :
    ∃ p, ms.Holds p ∧
      ∀ s, build? (before ++ .assign path key (x.put s q) :: after) = some (ms.put s p) := by
  obtain ⟨b, folded, rfl⟩ := Option.map_eq_some_iff.mp made
  rw [List.foldlM_append] at folded
  obtain ⟨start, led, folded⟩ := Option.bind_eq_some_iff.mp folded
  obtain ⟨next, added, folded⟩ := Option.bind_eq_some_iff.mp folded
  obtain ⟨root, filled, rfl⟩ := Option.map_eq_some_iff.mp added
  obtain ⟨p, place, each⟩ := Members.within_lands (Members.assign_lands key path) start.current
    q x start.root root holds filled
  obtain ⟨place, further⟩ := Building.foldlM_put (b := ⟨root, start.current⟩) place folded
  refine ⟨p, place, fun s => ?_⟩
  rw [build?, List.foldlM_append, led]
  simp only [Option.bind_eq_bind, Option.bind_some, List.foldlM_cons, Building.add?, each s,
    Option.map_some]
  exact congrArg (Option.map Building.root) (further s)

end EventPipeline.Toml
