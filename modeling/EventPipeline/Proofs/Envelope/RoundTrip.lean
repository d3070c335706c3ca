import EventPipeline.Envelope.Reader
import EventPipeline.Proofs.Json.RoundTrip

/-! # Published envelopes are read back

Every envelope that is read is well formed: its data and its unknown members are canonical
documents, and no unknown member has the key of a known one (`wellFormed_of_read`). A well-formed
envelope is read back from the payload that is written for it (`read_payload`), so an event loses
nothing however often it is published again.
-/

namespace EventPipeline

open Json

/-- An envelope as it is when it has been read. -/
structure Envelope.WellFormed (e : Envelope) : Prop where
  data : e.data.Canonical (maxDepth - 1)
  sorted : Sorted e.extra
  unknown : ∀ m ∈ e.extra, Field.ofKey? m.1 = none
  extra : ∀ m ∈ e.extra, m.2.Canonical (maxDepth - 1)

namespace Envelope

theorem wellFormed_blank : blank.WellFormed :=
  ⟨.null, .nil, fun _ member => (List.not_mem_nil member).elim,
    fun _ member => (List.not_mem_nil member).elim⟩

/-- What an envelope says beside its data and unknown members has no part in its form. -/
theorem WellFormed.congr {e e' : Envelope} (formed : e.WellFormed) (data : e'.data = e.data)
    (extra : e'.extra = e.extra) : e'.WellFormed := by
  constructor
  · rw [data]
    exact formed.data
  · rw [extra]
    exact formed.sorted
  · rw [extra]
    exact formed.unknown
  · rw [extra]
    exact formed.extra

end Envelope

namespace Draft

/-! ### What is read is well formed -/

theorem wellFormed_readField {e : Envelope} (formed : e.WellFormed) {field : Field} {bs : Octets}
    {e' : Envelope} {rest : Octets} (made : readField e field bs = .ok (e', rest)) :
    e'.WellFormed := by
  cases field with
  | data =>
    obtain ⟨⟨v, left⟩, taken, same⟩ := map_eq_ok.mp made
    cases same
    exact ⟨canonical_of_value taken, formed.sorted, formed.unknown, formed.extra⟩
  | _ =>
    obtain ⟨_, -, same⟩ := map_eq_ok.mp made
    cases same
    exact formed.congr rfl rfl

theorem wellFormed_member {draft : Draft} (formed : draft.envelope.WellFormed) {key : String}
    {bs : Octets} {draft' : Draft} {rest : Octets}
    (made : member draft key bs = .ok (draft', rest)) : draft'.envelope.WellFormed := by
  unfold member at made
  split at made
  · split at made
    · cases made
    · obtain ⟨left, -, made⟩ := bind_eq_ok.mp made
      obtain ⟨⟨e, left'⟩, taken, made⟩ := bind_eq_ok.mp made
      cases made
      exact wellFormed_readField formed taken
  · next unknown =>
    obtain ⟨left, -, made⟩ := bind_eq_ok.mp made
    obtain ⟨⟨v, left'⟩, taken, made⟩ := bind_eq_ok.mp made
    cases made
    refine ⟨formed.data, sorted_insertMember formed.sorted key v, ?_, ?_⟩
    · intro m member
      rcases mem_insertMember member with rfl | before
      · exact unknown
      · exact formed.unknown m before
    · intro m member
      rcases mem_insertMember member with rfl | before
      · exact canonical_of_value taken
      · exact formed.extra m before

end Draft

/-- Every envelope that is read is well formed. -/
theorem Envelope.wellFormed_of_read {bs : Octets} {e : Envelope} (made : read bs = .ok e) :
    e.WellFormed := by
  unfold read at made
  split at made
  · cases made
  split at made
  · obtain ⟨draft, whole, same⟩ := map_eq_ok.mp made
    subst same
    obtain ⟨⟨draft', rest⟩, folded, ended⟩ := bind_eq_ok.mp whole
    dsimp only at ended
    split at ended
    · cases ended
      exact invariant_of_foldMembers (I := fun draft : Draft => draft.envelope.WellFormed)
        (fun _ _ _ _ _ formed taken => Draft.wellFormed_member formed taken)
        Envelope.wellFormed_blank folded
    · cases ended
  · cases made

namespace Draft

/-! ### Members are taken as they were written -/

theorem ofKey?_key (field : Field) : Field.ofKey? field.key = some field := by
  cases field <;> decide

/-- A known member that was not met before is taken for what its reader makes of it. -/
theorem folds_key {met : List Field} {e : Envelope} {field : Field} {written : List Char}
    {ms : List (String × List Char)} {s' : Draft} (e' : Envelope) (new : field ∉ met)
    (reads : ∀ rest, EndsNumber rest →
      readField e field (encodeChars written ++ rest) = .ok (e', rest))
    (further : Folds member ⟨field :: met, e'⟩ ms s') :
    Folds member ⟨met, e⟩ ((field.key, written) :: ms) s' := by
  refine .step ?_ further
  intro rest ends
  simp only [member, ofKey?_key, if_neg new, colon_cons, bind, Except.bind, reads rest ends]
  rfl

/-- A known member that is written only when it is recorded is taken for what it records. -/
theorem folds_optional {α : Type} (field : Field) (write : α → List Char)
    (set : Option α → Envelope) (o : Option α) {met : List Field} (new : field ∉ met)
    (reads : ∀ a rest, EndsNumber rest →
      readField (set none) field (encodeChars (write a) ++ rest) = .ok (set (some a), rest)) :
    Folds member ⟨met, set none⟩ (o.toList.map fun a => (field.key, write a))
      ⟨(o.toList.map fun _ => field) ++ met, set o⟩ := by
  cases o with
  | none => exact .done _
  | some a => exact folds_key _ new (reads a) (.done _)

/-- Unknown members in increasing order of their keys are taken one behind the other. -/
theorem folds_extra {met : List Field} {e : Envelope} {front ms : List (String × Value)}
    (sorted : Sorted (front ++ ms)) (unknown : ∀ m ∈ ms, Field.ofKey? m.1 = none)
    (canonical : ∀ m ∈ ms, m.2.Canonical (maxDepth - 1)) :
    Folds member ⟨met, { e with extra := front }⟩ (ms.map fun (key, v) => (key, v.chars))
      ⟨met, { e with extra := front ++ ms }⟩ := by
  induction ms generalizing front with
  | nil =>
    rw [List.append_nil]
    exact .done _
  | cons m ms ih =>
    have sorted' : Sorted ((front ++ [m]) ++ ms) := by simpa using sorted
    have greatest : ∀ a ∈ front, a.1 < m.1 := fun a member =>
      (List.pairwise_append.mp sorted).2.2 a member m (List.mem_cons_self ..)
    have further := ih sorted' (fun a member => unknown a (List.mem_cons_of_mem _ member))
      (fun a member => canonical a (List.mem_cons_of_mem _ member))
    rw [List.append_assoc, List.singleton_append] at further
    refine .step ?_ further
    intro rest ends
    have reads := value_chars (canonical m (List.mem_cons_self ..)) ends
    simp only [member, unknown m (List.mem_cons_self ..), colon_cons, bind, Except.bind, reads,
      insertMember_of_greatest greatest]
    rfl

/-! ### The values of the known members -/

theorem scalarAt_string (s : String) {rest : Octets} (ends : EndsNumber rest) :
    scalarAt "a string" Value.asString (encodeChars (stringChars s) ++ rest) = .ok (s, rest) := by
  have accepted : Value.asString (.string s) = .ok s := rfl
  exact scalarAt_chars (v := .string s) trivial accepted "a string" ends

theorem scalarAt_textOrNull (o : Option String) {rest : Octets} (ends : EndsNumber rest) :
    scalarAt "a string" (Value.orNull Value.asString)
      (encodeChars (Envelope.textOrNull o).chars ++ rest) = .ok (o, rest) := by
  have scalar : (Envelope.textOrNull o).IsScalar := by
    cases o <;> trivial
  have accepted : Value.orNull Value.asString (Envelope.textOrNull o) = .ok o := by
    cases o <;> rfl
  exact scalarAt_chars scalar accepted "a string" ends

theorem scalarAt_time (ts : Int64) {rest : Octets} (ends : EndsNumber rest) :
    scalarAt "i64" Value.asInt64 (encodeChars (intChars ts.toInt) ++ rest) =
      .ok (ts.toInt, rest) := by
  have low := Int64.le_toInt ts
  have high := Int64.toInt_lt ts
  have accepted : Value.asInt64 (.number (.integer ⟨ts.toInt, low, by omega⟩)) = .ok ts.toInt :=
    if_pos ⟨low, Int.le_sub_one_of_lt high⟩
  exact scalarAt_chars (v := .number (.integer ⟨ts.toInt, low, by omega⟩)) trivial accepted "i64" ends

theorem intChars_natCast (n : Nat) : intChars n = Nat.toDigits 10 n := by
  rw [intChars, if_neg (by omega), List.nil_append, Int.natAbs_natCast]

theorem scalarAt_count (n : UInt32) {rest : Octets} (ends : EndsNumber rest) :
    scalarAt "u32" (Value.orNull Value.asUInt32)
      (encodeChars (Nat.toDigits 10 n.toNat) ++ rest) = .ok (some (n.toNat : Int), rest) := by
  have high := n.toNat_lt
  let count : Value := .number (.integer ⟨n.toNat, by omega, by omega⟩)
  have bounds : (0 : Int) ≤ n.toNat ∧ (n.toNat : Int) ≤ 2 ^ 32 - 1 := by omega
  have inside : count.asUInt32 = .ok (n.toNat : Int) := if_pos bounds
  have accepted : count.orNull Value.asUInt32 = .ok (some (n.toNat : Int)) :=
    congrArg (Except.map some) inside
  have reads := scalarAt_chars (v := count) trivial accepted "u32" ends
  have written : count.chars = Nat.toDigits 10 n.toNat := intChars_natCast n.toNat
  rwa [written] at reads

/-- The members that come before the data are taken one behind the other. -/
theorem folds_head (ts : Int64) (trace : Option String) (app : String) (ns : Option String) :
    Folds member empty
      [ (Field.ts.key, intChars ts.toInt), (Field.trace.key, (Envelope.textOrNull trace).chars),
        (Field.app.key, stringChars app), (Field.ns.key, (Envelope.textOrNull ns).chars) ]
      ⟨[.ns, .app, .trace, .ts], { Envelope.blank with ts, trace, app, ns }⟩ := by
  refine folds_key { Envelope.blank with ts } (by decide) (fun rest ends => ?_) <|
    folds_key { Envelope.blank with ts, trace } (by decide) (fun rest ends => ?_) <|
    folds_key { Envelope.blank with ts, trace, app } (by decide) (fun rest ends => ?_) <|
    folds_key { Envelope.blank with ts, trace, app, ns } (by decide) (fun rest ends => ?_) (.done _)
  · simp only [readField, scalarAt_time ts ends, Except.map, Int64.ofInt_toInt]
  · simp only [readField, scalarAt_textOrNull trace ends, Except.map]
  · simp only [readField, scalarAt_string app ends, Except.map]
  · simp only [readField, scalarAt_textOrNull ns ends, Except.map]

/-- The members of a well-formed envelope are taken one behind the other, and what they make is
that envelope. -/
theorem folds_members {e : Envelope} (formed : e.WellFormed) :
    ∃ met, Folds member empty e.members ⟨met, e⟩ := by
  obtain ⟨ts, trace, app, ns, data, retries, originTopic, originGroup, extra⟩ := e
  have always : Folds member empty
      [ (Field.ts.key, intChars ts.toInt), (Field.trace.key, (Envelope.textOrNull trace).chars),
        (Field.app.key, stringChars app), (Field.ns.key, (Envelope.textOrNull ns).chars),
        (Field.data.key, data.chars) ]
      ⟨[.data, .ns, .app, .trace, .ts], ⟨ts, trace, app, ns, data, none, none, none, []⟩⟩ := by
    refine (folds_head ts trace app ns).append <|
      folds_key { Envelope.blank with ts, trace, app, ns, data } (by decide)
        (fun rest ends => ?_) (.done _)
    simp only [readField, value_chars formed.data ends, Except.map]
  have counted := always.append <| folds_optional .retries (fun n => Nat.toDigits 10 n.toNat)
    (fun o => ⟨ts, trace, app, ns, data, o, none, none, []⟩) retries (by decide)
    fun n rest ends => by
      simp only [readField, scalarAt_count n ends, Except.map, Option.map_some, Int.toNat_natCast,
        UInt32.ofNat_toNat]
  have fromTopic := counted.append <| folds_optional .originTopic stringChars
    (fun o => ⟨ts, trace, app, ns, data, retries, o, none, []⟩) originTopic (by simp)
    fun s rest ends => by
      have reads := scalarAt_textOrNull (some s) ends
      simp only [Envelope.textOrNull, Value.chars] at reads
      simp only [readField, reads, Except.map]
  have fromGroup := fromTopic.append <| folds_optional .originGroup stringChars
    (fun o => ⟨ts, trace, app, ns, data, retries, originTopic, o, []⟩) originGroup (by simp)
    fun s rest ends => by
      have reads := scalarAt_textOrNull (some s) ends
      simp only [Envelope.textOrNull, Value.chars] at reads
      simp only [readField, reads, Except.map]
  have sorted : Sorted ([] ++ extra) := formed.sorted
  exact ⟨_, fromGroup.append <| folds_extra
    (e := ⟨ts, trace, app, ns, data, retries, originTopic, originGroup, []⟩) sorted formed.unknown
    formed.extra⟩

end Draft

/-- Reading the payload of an envelope is reading its members. -/
theorem Envelope.read_payload_eq (e : Envelope) :
    read e.payload = (complete (foldMembers Draft.member
      ((encodeChars (joinedMembers e.members) ++ octet '\x7d' :: []).length + 1) true Draft.empty
      (encodeChars (joinedMembers e.members) ++ octet '\x7d' :: []))).map Draft.envelope := by
  have written : e.payload =
      octet '\x7b' :: (encodeChars (joinedMembers e.members) ++ octet '\x7d' :: []) := by
    have close : encodeChars ['\x7d'] = [octet '\x7d'] := rfl
    rw [payload, chars, intercalate_members, List.cons_append, encodeChars_cons_ascii (by decide),
      encodeChars_append, close]
  have brace : isGap (octet '\x7b') = false := by decide
  rw [written, read]
  simp only [skipGap_cons brace, if_true]

/-- A well-formed envelope is read back from the payload that is written for it. -/
theorem Envelope.read_payload {e : Envelope} (formed : e.WellFormed) : read e.payload = .ok e := by
  obtain ⟨met, folds⟩ := Draft.folds_members formed
  rw [read_payload_eq, foldMembers_chars folds [] (by rw [List.length_append]; omega)]
  rfl

/-- A payload that holds an envelope has an opening brace in it. -/
theorem Envelope.brace_mem_of_read {bs : Octets} {e : Envelope} (made : read bs = .ok e) :
    octet '\x7b' ∈ bs := by
  unfold read at made
  split at made
  · cases made
  · next b rest start =>
    split at made
    · next brace =>
      have member : b ∈ skipGap bs := start ▸ List.mem_cons_self ..
      exact brace ▸ (List.dropWhile_sublist _).mem member
    · cases made

/-- An event that was read is read back from the payload under which it is published again. -/
theorem Envelope.read_payload_of_read {bs : Octets} {e : Envelope} (made : read bs = .ok e) :
    read e.payload = .ok e := read_payload (wellFormed_of_read made)

end EventPipeline
