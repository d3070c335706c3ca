import EventPipeline.Proofs.Reading
import EventPipeline.Proofs.Toml.Places
import EventPipeline.Toml.Shape

/-! # Values of a given shape with a string in the place of another

A value that has a shape has it with any string in the place of one of its strings, since a place only
leads to strings. What is taken from it is then what was taken before, but for that string: in a record
the edit is to the field that the first step of the place leads to, by its name or its position. What
the edits of a record do is a relation between the record before and the one after, `Edits`.
-/

namespace EventPipeline.Toml

variable {α ρ : Type} {p : Place} {x : Value}

/-! ### Texts and lists -/

/-- Only a text has a string at the place without steps, and it has it nowhere else. -/
theorem holds_string {s : String} (h : Value.Holds p (.string s)) : p = [] := by
  rcases p with _ | ⟨k | i, p⟩
  · rfl
  · exact h.elim
  · exact h.elim

theorem asString_put {s : String} (h : x.Holds p) (made : x.asString = .ok s) :
    p = [] ∧ ∀ v, (x.put v p).asString = .ok v := by
  cases x with
  | string s =>
    obtain rfl := holds_string h
    exact ⟨rfl, fun _ => rfl⟩
  | _ => cases made

theorem asBoolean_ne {b : Bool} (h : x.Holds p) : x.asBoolean ≠ .ok b := by
  intro made
  cases x with
  | boolean b => rcases p with _ | ⟨k | i, p⟩ <;> simp [Value.Holds] at h
  | _ => cases made

theorem asNatural_ne {n : Nat} (h : x.Holds p) : x.asNatural ≠ .ok n := by
  intro made
  cases x with
  | integer n => rcases p with _ | ⟨k | i, p⟩ <;> simp [Value.Holds] at h
  | _ => cases made

theorem mapM_modify {take : Value → Except Mismatch α} {items : List Value} {as : List α}
    (made : items.mapM take = .ok as) {i : Nat} {y : Value} (found : items[i]? = some y) :
    ∃ a, as[i]? = some a ∧ take y = .ok a ∧ ∀ (f : Value → Value) (g : α → α),
      take (f y) = .ok (g a) → (items.modify i f).mapM take = .ok (as.modify i g) := by
  induction items generalizing as i with
  | nil => simp at found
  | cons z items ih =>
    rw [List.mapM_cons] at made
    obtain ⟨b, one, made⟩ := bind_eq_ok.mp made
    obtain ⟨bs, others, made⟩ := bind_eq_ok.mp made
    cases made
    cases i with
    | zero =>
      cases found
      refine ⟨b, rfl, one, fun f g changed => ?_⟩
      rw [List.modify_zero_cons, List.mapM_cons, changed, others]
      rfl
    | succ i =>
      obtain ⟨a, place, taken, each⟩ := ih others found
      refine ⟨a, place, taken, fun f g changed => ?_⟩
      rw [List.modify_succ_cons, List.mapM_cons, one, each f g changed]
      rfl

/-- A list with a string in one of its items. -/
theorem asList_put {take : Value → Except Mismatch α} {as : List α} (h : x.Holds p)
    (made : x.asList take = .ok as) : ∃ i q y a, p = .item i :: q ∧ y.Holds q ∧ as[i]? = some a ∧
      take y = .ok a ∧ ∀ v g, take (y.put v q) = .ok (g a) →
        (x.put v p).asList take = .ok (as.modify i g) := by
  cases x with
  | array grows items =>
    rcases p with _ | ⟨k | i, q⟩
    · simp [Value.Holds] at h
    · exact h.elim
    · obtain ⟨y, found, holds⟩ := h
      obtain ⟨a, place, taken, each⟩ := mapM_modify made found
      exact ⟨i, q, y, a, rfl, holds, place, taken, fun v g changed => each (Value.put v q) g changed⟩
  | _ => cases made

/-! ### Records -/

/-- The field of a record that a step leads to. -/
def fieldAt? (fields : List (Field ρ)) : Step → Option (Field ρ)
  | .key k => fields.find? fun f => f.name = k
  | .item i => fields[i]?

/-- A field that an edit leaves alone: what can be put into it before can be put into it afterwards. -/
def Field.Beside (R : ρ → ρ → Prop) (f : Field ρ) : Prop :=
  ∀ {r r'}, R r r' → ∀ {y r₁}, f.put y r = .ok r₁ → ∃ r₂, f.put y r' = .ok r₂ ∧ R r₁ r₂

/-- An edit of one field: this field overwrites it, and the others are left alone. -/
structure Touches (fields : List (Field ρ)) (name : String) (R : ρ → ρ → Prop) : Prop where
  own : ∀ f ∈ fields, f.name = name → ∀ {r r'}, R r r' → ∀ y, f.put y r' = f.put y r
  others : ∀ f ∈ fields, f.name ≠ name → f.Beside R

/-- What another string does to a record: the edits of a field are to that field only, and putting a
value into it with a string at a place makes the edit of that place. -/
structure Edits (fields : List (Field ρ)) (R : Place → String → ρ → ρ → Prop) : Prop where
  distinct : (fields.map Field.name).Nodup
  outside : ∀ {step}, fieldAt? fields step = none → ∀ q v r, R (step :: q) v r r
  touches : ∀ {step f}, fieldAt? fields step = some f → ∀ q v, Touches fields f.name (R (step :: q) v)
  puts : ∀ {step f}, fieldAt? fields step = some f → ∀ {q y r r'}, y.Holds q → f.put y r = .ok r' →
    ∀ v, ∃ r'', f.put (y.put v q) r = .ok r'' ∧ R (step :: q) v r' r''

/-- Puts a member of a table into a record. -/
def putMember (fields : List (Field ρ)) (r : ρ) (m : String × Value) : Except Mismatch ρ :=
  match fields.find? fun f => f.name = m.1 with
  | some f => f.put m.2 r
  | none => .ok r

/-- The first field that a record needs and a table does not have. -/
def missing? (fields : List (Field ρ)) (ms : Members) : Option (Field ρ) :=
  fields.find? fun f => f.required && !(ms.any fun m => m.1 = f.name)

theorem takeMembers_eq_ok {fields : List (Field ρ)} {r r' : ρ} {ms : Members} :
    takeMembers fields r ms = .ok r' ↔
      ms.foldlM (putMember fields) r = .ok r' ∧ missing? fields ms = none := by
  have same : takeMembers fields r ms = ms.foldlM (putMember fields) r >>= fun r =>
      match missing? fields ms with
      | some f => .error (.missingField f.name)
      | none => .ok r := rfl
  rw [same, bind_eq_ok]
  constructor
  · rintro ⟨r₁, folded, checked⟩
    split at checked
    · cases checked
    · next complete => cases checked; exact ⟨folded, complete⟩
  · rintro ⟨folded, complete⟩
    exact ⟨r', folded, by rw [complete]⟩

theorem missing?_change (fields : List (Field ρ)) (k : String) (f : Value → Value) (ms : Members) :
    missing? fields (Members.change k f ms) = missing? fields ms := by
  have same : ∀ name, (Members.change k f ms).any (fun m => m.1 = name) =
      ms.any fun m => m.1 = name := fun name => by
    rw [Members.change, List.any_map]
    congr 1
    funext m
    simp only [Function.comp]
    split_ifs <;> rfl
  simp only [missing?, same]

section Members

variable {fields : List (Field ρ)} {k : String} {R : ρ → ρ → Prop} {v : String}

theorem putMember_of_none {m : String × Value} (none : fieldAt? fields (.key m.1) = none) (r : ρ) :
    putMember fields r m = .ok r := by
  have none : (fields.find? fun f => f.name = m.1) = Option.none := none
  rw [putMember, none]

theorem putMember_of_field {m : String × Value} {f : Field ρ}
    (found : fieldAt? fields (.key m.1) = some f) (r : ρ) : putMember fields r m = f.put m.2 r := by
  have found : (fields.find? fun f => f.name = m.1) = some f := found
  rw [putMember, found]

theorem name_of_fieldAt? {f : Field ρ} (found : fieldAt? fields (.key k) = some f) :
    f ∈ fields ∧ f.name = k :=
  ⟨List.mem_of_find?_eq_some found, by simpa using List.find?_some found⟩

/-- Members with other keys are put into a record beside the edit. -/
theorem Touches.putMember_of_ne (touches : Touches fields k R) {m : String × Value} (other : m.1 ≠ k)
    {r r' r₁ : ρ} (h : R r r') (made : putMember fields r m = .ok r₁) :
    ∃ r₂, putMember fields r' m = .ok r₂ ∧ R r₁ r₂ := by
  cases found : fieldAt? fields (.key m.1) with
  | none =>
    rw [putMember_of_none found] at made
    cases made
    exact ⟨r', putMember_of_none found r', h⟩
  | some f =>
    obtain ⟨member, name⟩ := name_of_fieldAt? found
    rw [putMember_of_field found] at made
    rw [putMember_of_field found]
    exact touches.others f member (name ▸ other) h made

theorem foldlM_putMember_of_none (none : fieldAt? fields (.key k) = none) (g : Value → Value)
    (ms : Members) (r : ρ) :
    (Members.change k g ms).foldlM (putMember fields) r = ms.foldlM (putMember fields) r := by
  rw [Members.change, List.foldlM_map]
  congr 1
  funext r m
  split_ifs with same
  · rw [putMember_of_none (by rw [same]; exact none), putMember_of_none (by rw [same]; exact none)]
  · rfl

/-- A record is filled alike from members with another string in those of one field: as soon as there
was one of these, the record differs by the edit of the field. -/
theorem foldlM_putMember {f : Field ρ} (touches : Touches fields k R)
    (found : fieldAt? fields (.key k) = some f)
    (puts : ∀ {y r r'}, y.Holds p → f.put y r = .ok r' →
      ∃ r'', f.put (y.put v p) r = .ok r'' ∧ R r' r'')
    {ms : Members} {r r' : ρ} (holds : ∀ y, (k, y) ∈ ms → y.Holds p)
    (made : ms.foldlM (putMember fields) r = .ok r') {r₀ : ρ}
    (start : r₀ = r ∧ (∃ y, (k, y) ∈ ms) ∨ R r r₀) :
    ∃ r'', (Members.change k (Value.put v p) ms).foldlM (putMember fields) r₀ = .ok r'' ∧ R r' r'' := by
  obtain ⟨member, name⟩ := name_of_fieldAt? found
  induction ms generalizing r r₀ with
  | nil =>
    cases made
    rcases start with ⟨-, y, given⟩ | edited
    · exact absurd given List.not_mem_nil
    · exact ⟨r₀, rfl, edited⟩
  | cons m ms ih =>
    obtain ⟨other, y⟩ := m
    obtain ⟨r₁, one, made⟩ := bind_eq_ok.mp made
    have later := fun y member => holds y (List.mem_cons_of_mem _ member)
    by_cases same : other = k
    · subst same
      have head : Members.change other (Value.put v p) ((other, y) :: ms) =
          (other, y.put v p) :: Members.change other (Value.put v p) ms := by simp [Members.change]
      rw [putMember_of_field found] at one
      obtain ⟨r₂, put, edited⟩ := puts (holds y List.mem_cons_self) one
      have put : f.put (y.put v p) r₀ = .ok r₂ := by
        rcases start with ⟨rfl, -⟩ | already
        · exact put
        · rw [touches.own f member name already]
          exact put
      rw [head, List.foldlM_cons, putMember_of_field found, put]
      exact ih later made (.inr edited)
    · have head : Members.change k (Value.put v p) ((other, y) :: ms) =
          (other, y) :: Members.change k (Value.put v p) ms := by simp [Members.change, same]
      rw [head, List.foldlM_cons]
      rcases start with ⟨here, z, given⟩ | already
      · rw [here, one]
        exact ih later made (.inl ⟨rfl, z, by simpa [Ne.symm same] using given⟩)
      · obtain ⟨r₂, put, edited⟩ := touches.putMember_of_ne same already one
        rw [put]
        exact ih later made (.inr edited)

/-- A record that is filled from members with another string in one of them. -/
theorem takeMembers_put {R : Place → String → ρ → ρ → Prop} (edits : Edits fields R) {ms : Members}
    {r r' : ρ} (holds : ms.Holds p) (made : takeMembers fields r ms = .ok r') (v : String) :
    ∃ r'', takeMembers fields r (ms.put v p) = .ok r'' ∧ R p v r' r'' := by
  rcases p with _ | ⟨k | i, q⟩
  · exact holds.elim
  · obtain ⟨folded, complete⟩ := takeMembers_eq_ok.mp made
    have complete : missing? fields (ms.put v (.key k :: q)) = none :=
      (missing?_change fields k _ ms).trans complete
    cases found : fieldAt? fields (.key k) with
    | none =>
      refine ⟨r', takeMembers_eq_ok.mpr ⟨?_, complete⟩, edits.outside found q v r'⟩
      exact (foldlM_putMember_of_none found _ ms r).trans folded
    | some f =>
      obtain ⟨-, rfl⟩ := name_of_fieldAt? found
      obtain ⟨r'', put, edited⟩ := foldlM_putMember (edits.touches found q v) found
        (fun holds made => edits.puts found holds made v) holds.2 folded (.inl ⟨rfl, holds.1⟩)
      exact ⟨r'', takeMembers_eq_ok.mpr ⟨put, complete⟩, edited⟩
  · exact holds.elim

end Members

section Items

variable {fields : List (Field ρ)} {expected : String} {R : ρ → ρ → Prop}

/-- Items for other fields are put into a record beside the edit. -/
theorem takeItems_beside (others : ∀ f ∈ fields, f.Beside R) {index : Nat} {r r' r₁ : ρ}
    {items : List Value} (h : R r r')
    (made : takeItems expected index fields r items = .ok r₁) :
    ∃ r₂, takeItems expected index fields r' items = .ok r₂ ∧ R r₁ r₂ := by
  induction fields generalizing index r r' items with
  | nil => cases items <;> cases made <;> exact ⟨r', rfl, h⟩
  | cons f fields ih =>
    have later : ∀ g ∈ fields, g.Beside R := fun g member => others g (List.mem_cons_of_mem _ member)
    cases items with
    | nil =>
      rw [takeItems] at made ⊢
      split at made
      · cases made
      · next optional =>
        rw [if_neg optional]
        exact ih later h made
    | cons y items =>
      obtain ⟨r₂, one, made⟩ := bind_eq_ok.mp made
      obtain ⟨r₃, put, edited⟩ := others f List.mem_cons_self h one
      rw [takeItems, put]
      exact ih later edited made

theorem takeItems_modify_of_none {i : Nat} (none : fields[i]? = none) (g : Value → Value) {index : Nat}
    {r : ρ} {items : List Value} :
    takeItems expected index fields r (items.modify i g) = takeItems expected index fields r items := by
  induction fields generalizing i index r items with
  | nil => cases items <;> cases i <;> rfl
  | cons f fields ih =>
    rcases i with _ | i
    · simp at none
    · rcases items with _ | ⟨y, items⟩
      · rfl
      · rw [List.modify_succ_cons, takeItems, takeItems]
        simp only [ih (by simpa using none)]

theorem takeItems_modify {i : Nat} {f : Field ρ} (here : fields[i]? = some f) {g : Value → Value}
    (others : ∀ f ∈ fields.drop (i + 1), f.Beside R) {items : List Value} {y : Value}
    (found : items[i]? = some y)
    (puts : ∀ {r r'}, f.put y r = .ok r' → ∃ r'', f.put (g y) r = .ok r'' ∧ R r' r'')
    {index : Nat} {r r' : ρ} (made : takeItems expected index fields r items = .ok r') :
    ∃ r'', takeItems expected index fields r (items.modify i g) = .ok r'' ∧ R r' r'' := by
  induction fields generalizing i index items r with
  | nil => simp at here
  | cons e fields ih =>
    cases items with
    | nil => simp at found
    | cons z items =>
      obtain ⟨r₁, one, rest⟩ := bind_eq_ok.mp made
      cases i with
      | zero =>
        cases found
        cases here
        obtain ⟨r₂, put, edited⟩ := puts one
        rw [List.modify_zero_cons, takeItems, put]
        rw [List.drop_succ_cons, List.drop_zero] at others
        exact takeItems_beside others edited rest
      | succ i =>
        rw [List.modify_succ_cons, takeItems, one]
        exact ih (by simpa using here) (by simpa using others) (by simpa using found) rest

end Items

/-- Fields after one have other names. -/
theorem name_ne_of_drop {fields : List (Field ρ)} (distinct : (fields.map Field.name).Nodup) {i : Nat}
    {f g : Field ρ} (found : fields[i]? = some f) (later : g ∈ fields.drop (i + 1)) :
    g.name ≠ f.name := by
  obtain ⟨inside, here⟩ := List.getElem?_eq_some_iff.mp found
  have ends : (fields.drop i).map Field.name = f.name :: (fields.drop (i + 1)).map Field.name := by
    rw [List.drop_eq_getElem_cons inside, here, List.map_cons]
  have distinct : ((fields.drop i).map Field.name).Nodup :=
    distinct.sublist ((List.drop_sublist i fields).map _)
  rw [ends, List.nodup_cons] at distinct
  exact fun same => distinct.1 (same ▸ List.mem_map_of_mem later)

/-- A record with another string in the place of one. -/
theorem asRecord_put {name : String} {fields : List (Field ρ)} {R : Place → String → ρ → ρ → Prop}
    (edits : Edits fields R) {blank r : ρ} (holds : x.Holds p)
    (made : x.asRecord name fields blank = .ok r) (v : String) :
    ∃ r', (x.put v p).asRecord name fields blank = .ok r' ∧ R p v r r' := by
  rcases x with _ | _ | _ | _ | _ | ⟨grows, items⟩ | ⟨origin, ms⟩
  case array =>
    rcases p with _ | ⟨k | i, q⟩
    · simp [Value.Holds] at holds
    · exact holds.elim
    · obtain ⟨y, found, inner⟩ := holds
      cases here : fieldAt? fields (.item i) with
      | none =>
        refine ⟨r, (takeItems_modify_of_none here _).trans made, ?_⟩
        exact edits.outside here q v r
      | some f =>
        have edited := edits.touches here q v
        exact takeItems_modify here
          (fun g later => edited.others g (List.mem_of_mem_drop later)
            (name_ne_of_drop edits.distinct here later))
          found (fun made => edits.puts here inner made v) made
  case table =>
    rw [Value.holds_table] at holds
    rw [Value.put_table holds]
    exact takeMembers_put edits holds made v
  case moment => rcases p with _ | ⟨k | i, p⟩ <;> simp [Value.Holds] at holds
  all_goals cases made

/-! ### Settings of a record -/

section Settings

variable {σ : Type}

/-- A record differs from another by a string in a setting that it has, if there is a setting. -/
def Edited (get? : σ → ρ → Option String) (set : σ → String → ρ → ρ) (setting : Option σ) (v : String)
    (r r' : ρ) : Prop :=
  match setting with
  | none => r' = r
  | some s => (get? s r).isSome ∧ r' = set s v r

/-- The name of the field that a step leads to. -/
def nameAt? (names : List String) : Step → Option String
  | .key k => names.find? (· = k)
  | .item i => names[i]?

/-- The setting that a place in a record leads to, given the settings of each field. -/
def settingAt? (fields : List (Field ρ)) (ofField? : String → Place → Option σ) : Place → Option σ
  | [] => none
  | step :: q => (nameAt? (fields.map Field.name) step).bind fun name => ofField? name q

theorem nameAt?_eq (fields : List (Field ρ)) (step : Step) :
    nameAt? (fields.map Field.name) step = (fieldAt? fields step).map Field.name := by
  cases step with
  | key k => exact List.find?_map ..
  | item i => exact List.getElem?_map ..

section

variable {f : Field ρ} {take : Value → Except Mismatch α} {set : α → ρ → ρ} {R : ρ → ρ → Prop}

/-- A field that sets something else is left alone by an edit. -/
theorem beside_of_set (puts : ∀ y r, f.put y r = (take y).map fun a => set a r)
    (apart : ∀ {r r'}, R r r' → ∀ a, R (set a r) (set a r')) : f.Beside R := by
  intro r r' edited y r₁ made
  rw [puts] at made
  obtain ⟨a, taken, rfl⟩ := map_eq_ok.mp made
  exact ⟨set a r', by rw [puts, taken]; rfl, apart edited a⟩

/-- A field is edited by what is taken from another value. -/
theorem put_of_take (puts : ∀ y r, f.put y r = (take y).map fun a => set a r) {y y' : Value} {r r' : ρ}
    (made : f.put y r = .ok r')
    (edit : ∀ {a}, take y = .ok a → ∃ a', take y' = .ok a' ∧ R (set a r) (set a' r)) :
    ∃ r'', f.put y' r = .ok r'' ∧ R r' r'' := by
  rw [puts] at made ⊢
  obtain ⟨a, taken, rfl⟩ := map_eq_ok.mp made
  obtain ⟨a', taken', edited⟩ := edit taken
  exact ⟨set a' r, by rw [taken']; rfl, edited⟩

end

section

variable {fields : List (Field ρ)} {ofField? : String → Place → Option σ}
  {get? : σ → ρ → Option String} {set : σ → String → ρ → ρ}

theorem touches_eq (name : String) : Touches fields name fun r r' => r' = r where
  own := fun _ _ _ _ _ same _ => by rw [same]
  others := fun _ _ _ _ _ same _ r₁ made => ⟨r₁, same ▸ made, rfl⟩

theorem mem_of_fieldAt? {step : Step} {f : Field ρ} (found : fieldAt? fields step = some f) :
    f ∈ fields := by
  cases step with
  | key k => exact List.mem_of_find?_eq_some found
  | item i => exact List.mem_of_getElem? found

/-- A record with no field for a string is not edited. -/
theorem edits_of_no_string (distinct : (fields.map Field.name).Nodup)
    (refuses : ∀ f ∈ fields, ∀ {y q r r'}, y.Holds q → f.put y r ≠ .ok r') :
    Edits fields fun _ _ r r' => r' = r where
  distinct := distinct
  outside := fun _ _ _ _ => rfl
  touches := fun {_ f} _ _ _ => touches_eq f.name
  puts := fun {_ _} found {_ _ _ _} holds made => absurd made (refuses _ (mem_of_fieldAt? found) holds)

/-- The settings of a record are edited when those of each field are. -/
theorem edits_of_fields (field : σ → String) (distinct : (fields.map Field.name).Nodup)
    (named : ∀ {name q s}, ofField? name q = some s → name = field s)
    (touches : ∀ s v, Touches fields (field s) (Edited get? set (some s) v))
    (puts : ∀ f ∈ fields, ∀ {q y r r'}, y.Holds q → f.put y r = .ok r' → ∀ v,
      ∃ r'', f.put (y.put v q) r = .ok r'' ∧ Edited get? set (ofField? f.name q) v r' r'') :
    Edits fields fun p => Edited get? set (settingAt? fields ofField? p) := by
  have at_some : ∀ {step f}, fieldAt? fields step = some f → ∀ q,
      settingAt? fields ofField? (step :: q) = ofField? f.name q := fun {step f} found q => by
    rw [settingAt?, nameAt?_eq, found]
    rfl
  refine ⟨distinct, fun {step} none q v r => ?_, fun {step f} found q v => ?_,
    fun {step f} found {q y r r'} holds made v => ?_⟩
  · rw [settingAt?, nameAt?_eq, none]
    rfl
  · rw [at_some found]
    cases setting : ofField? f.name q with
    | none => exact touches_eq f.name
    | some s => exact named setting ▸ touches s v
  · rw [at_some found]
    exact puts f (mem_of_fieldAt? found) holds made v

end

end Settings

end EventPipeline.Toml
