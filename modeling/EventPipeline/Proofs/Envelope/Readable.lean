import EventPipeline.Proofs.Envelope.RoundTrip
import EventPipeline.Proofs.Json.Depth

/-! # Which envelopes are read back

An envelope is written as one document, its `document`. It is read back from its payload exactly when no
unknown member has the key of a known one and this document nests no deeper than readers go
(`read_payload_iff`). If only its data nests too deep, nothing at all is read from the payload.
-/

namespace EventPipeline

open Json

namespace Json.Integer

/-- A signed 64-bit integer. -/
def ofInt64 (n : Int64) : Integer :=
  ⟨n.toInt, Int64.le_toInt n, Int.lt_trans (Int64.toInt_lt n) (by decide)⟩

/-- An unsigned 32-bit integer. -/
def ofUInt32 (n : UInt32) : Integer :=
  have bound := n.toNat_lt
  ⟨n.toNat, by omega, by omega⟩

end Json.Integer

/-- All keys under which a known member is read. -/
def Field.names : List String :=
  ["ts", "trace", "app", "namespace", "np", "data", "retries", "original_topic", "original_group_id"]

theorem Field.ofKey?_eq_none_iff {name : String} : ofKey? name = none ↔ name ∉ names := by
  unfold ofKey?
  split
  · next short => simp [short, names]
  · next other =>
    have absent : (∀ f ∈ all, f.key ≠ name) ↔ name ∉ all.map key := by simp
    have named : name ∉ all.map key ↔ name ∉ names := by simp [all, key, names, other]
    rw [List.find?_eq_none, ← named, ← absent]
    simp

namespace Envelope

/-- The objects in an envelope are ordered, as those of every document in memory are. -/
structure Ordered (e : Envelope) : Prop where
  data : e.data.Ordered
  sorted : Sorted e.extra
  extra : ∀ m ∈ e.extra, m.2.Ordered

/-- The document that an envelope is written as. -/
def document (e : Envelope) : Value := .object <|
  [ (Field.ts.key, .number (.integer (.ofInt64 e.ts))),
    (Field.trace.key, textOrNull e.trace),
    (Field.app.key, .string e.app),
    (Field.ns.key, textOrNull e.ns),
    (Field.data.key, e.data) ] ++
  (e.retries.toList.map fun n => (Field.retries.key, .number (.integer (.ofUInt32 n)))) ++
  (e.originTopic.toList.map fun t => (Field.originTopic.key, .string t)) ++
  (e.originGroup.toList.map fun g => (Field.originGroup.key, .string g)) ++
  e.extra

/-- The document of an envelope is written as the envelope is. -/
theorem chars_document (e : Envelope) : e.document.chars = e.chars := by
  have count (n : UInt32) : (Value.number (.integer (.ofUInt32 n))).chars = Nat.toDigits 10 n.toNat :=
    Draft.intChars_natCast n.toNat
  rw [document, Value.chars, membersChars_eq, chars, intercalate_members]
  simp only [members, List.map_append, List.map_map, Function.comp_def, count]
  rfl

theorem depth_textOrNull (text? : Option String) : (textOrNull text?).depth = 0 := by
  cases text? <;> rfl

theorem membersDepth_optional {α : Type} (key : String) (write : α → Value)
    (flat : ∀ a, (write a).depth = 0) (o : Option α) :
    membersDepth (o.toList.map fun a => (key, write a)) = 0 := by
  cases o with
  | none => rfl
  | some a => simp [membersDepth, flat]

/-- An envelope nests one deeper than its data and its unknown members. -/
theorem depth_document (e : Envelope) :
    e.document.depth = max e.data.depth (membersDepth e.extra) + 1 := by
  have retries := membersDepth_optional Field.retries.key
    (fun n => .number (.integer (.ofUInt32 n))) (fun _ => rfl) e.retries
  have topic := membersDepth_optional Field.originTopic.key .string (fun _ => rfl) e.originTopic
  have group := membersDepth_optional Field.originGroup.key .string (fun _ => rfl) e.originGroup
  rw [document, Value.depth, membersDepth_append, membersDepth_append, membersDepth_append,
    membersDepth_append, retries, topic, group]
  simp [membersDepth, depth_textOrNull, Value.depth]

/-- An envelope is as one that has been read if and only if its objects are ordered, no unknown member has
the key of a known one, and it nests no deeper than readers go. -/
theorem wellFormed_iff {e : Envelope} :
    e.WellFormed ↔
      e.Ordered ∧ (∀ m ∈ e.extra, m.1 ∉ Field.names) ∧ e.document.depth ≤ maxDepth := by
  have within : e.document.depth ≤ maxDepth ↔
      e.data.depth ≤ maxDepth - 1 ∧ ∀ m ∈ e.extra, m.2.depth ≤ maxDepth - 1 := by
    rw [depth_document, ← membersDepth_le_iff, ← Nat.max_le]
    exact Nat.succ_le_succ_iff
  constructor
  · intro formed
    refine ⟨⟨formed.data.ordered.1, formed.sorted, fun m mem => (formed.extra m mem).ordered.1⟩,
      fun m mem => Field.ofKey?_eq_none_iff.mp (formed.unknown m mem), within.mpr ⟨?_, ?_⟩⟩
    · exact formed.data.ordered.2
    · exact fun m mem => (formed.extra m mem).ordered.2
  · rintro ⟨ordered, unknown, depth⟩
    obtain ⟨data, extra⟩ := within.mp depth
    exact ⟨ordered.data.canonical data, ordered.sorted,
      fun m mem => Field.ofKey?_eq_none_iff.mpr (unknown m mem),
      fun m mem => (ordered.extra m mem).canonical (extra m mem)⟩

/-- An envelope is read back from its payload if and only if its unknown members have none of the nine
keys under which a known member is read, and at most 127 arrays and objects, the envelope's own object
being one, stand inside one another in the document that it is written as. -/
theorem read_payload_iff {e : Envelope} (ordered : e.Ordered) :
    read e.payload = .ok e ↔ (∀ m ∈ e.extra, m.1 ∉ Field.names) ∧ e.document.depth ≤ 127 := by
  constructor
  · intro reads
    exact (wellFormed_iff.mp (wellFormed_of_read reads)).2
  · intro readable
    exact read_payload (wellFormed_iff.mpr ⟨ordered, readable⟩)

namespace Sample

/-- An event with one unknown member. -/
def labelled (key : String) (data : Value) : Envelope :=
  { blank with data, extra := [(key, .null)] }

theorem ordered_labelled (key : String) {data : Value} (ordered : data.Ordered) :
    (labelled key data).Ordered :=
  ⟨ordered, List.pairwise_singleton .., List.forall_mem_singleton.mpr .null⟩

end Sample

/-- An event is read back with data of 126 arrays and not with data of 127; an unknown member with an
older key of the namespace is not read back. -/
theorem sample_read_payload :
    let deep := Sample.labelled "tenant" (.nested 125)
    let deeper := Sample.labelled "tenant" (.nested 126)
    let shadowed := Sample.labelled "np" .null
    read deep.payload = .ok deep ∧ read deeper.payload ≠ .ok deeper ∧
      read shadowed.payload ≠ .ok shadowed := by
  have depth (key : String) (n : Nat) : (Sample.labelled key (.nested n)).document.depth = n + 2 := by
    rw [depth_document]
    simp [Sample.labelled, Value.depth_nested, membersDepth, Value.depth]
  have ordered (key : String) (n : Nat) : (Sample.labelled key (.nested n)).Ordered :=
    Sample.ordered_labelled key (Value.ordered_nested n)
  refine ⟨(read_payload_iff (ordered "tenant" 125)).mpr ⟨?_, (depth "tenant" 125).le⟩, ?_, ?_⟩
  · simp [Sample.labelled, Field.names]
  · intro reads
    have within := ((read_payload_iff (ordered "tenant" 126)).mp reads).2
    rw [depth] at within
    exact absurd within (by decide)
  · intro reads
    have unknown := ((read_payload_iff (Sample.ordered_labelled "np" .null)).mp reads).1
    exact unknown _ (List.mem_singleton_self _) (by decide)

/-- A payload of which anything is read holds data that nests less deep than readers go. -/
theorem depth_data_of_read_payload {e e' : Envelope} (ordered : e.data.Ordered)
    (reads : read e.payload = .ok e') : e.data.depth < maxDepth := by
  rw [read_payload_eq] at reads
  obtain ⟨draft, whole, -⟩ := map_eq_ok.mp reads
  obtain ⟨made, folded, -⟩ := bind_eq_ok.mp whole
  have parts : e.members =
      [ (Field.ts.key, intChars e.ts.toInt), (Field.trace.key, (textOrNull e.trace).chars),
        (Field.app.key, stringChars e.app), (Field.ns.key, (textOrNull e.ns).chars) ] ++
      (Field.data.key, e.data.chars) :: e.members.drop 5 := rfl
  rw [parts] at folded
  obtain ⟨rest, taken, ends, takes⟩ := (Draft.folds_head e.ts e.trace e.app e.ns).takes folded
  simp only [Draft.member, Draft.ofKey?_key] at takes
  rw [if_neg (by decide), colon_cons] at takes
  obtain ⟨colonless, stripped, takes⟩ := bind_eq_ok.mp takes
  obtain rfl : encodeChars e.data.chars ++ rest = colonless := Except.ok.inj stripped
  obtain ⟨_, field, -⟩ := bind_eq_ok.mp takes
  obtain ⟨_, value, -⟩ := map_eq_ok.mp field
  exact Nat.lt_of_le_pred (by decide) (depth_le_of_value_chars ordered ends value)

end Envelope

end EventPipeline
