import EventPipeline.Proofs.Envelope.Members

/-! # Which texts are envelopes

A text is read as an envelope exactly if it is an object whose members fit, and the envelope is the one that
they describe (`Envelope.read_accepts`). The reader of envelopes goes over the members of a text in step
with the reader of documents: a known member is taken if the document at hand is of its kind, and `Reads`
relates the draft to the members before it.
-/

namespace EventPipeline

open Json

/-! ### Values of a kind -/

namespace Json

theorem Value.asString_eq_ok_iff {v : Value} {s : String} : v.asString = .ok s ↔ v = .string s := by
  cases v <;> simp [asString]

theorem Value.orNull_eq_ok_iff {α : Type} {accept : Value → Except Mismatch α} {v : Value} {a? : Option α} :
    v.orNull accept = .ok a? ↔
      v = .null ∧ a? = none ∨ v ≠ .null ∧ ∃ a, accept v = .ok a ∧ a? = some a := by
  have others {v : Value} (notNull : v ≠ .null) : v.orNull accept = (accept v).map some := by
    cases v <;> first | rfl | exact absurd rfl notNull
  by_cases null : v = .null
  · subst null
    simp [orNull, eq_comm]
  · rw [others null, map_eq_ok]
    simp [null, eq_comm]

theorem Value.asInteger_eq_ok_iff {low high n : Int} {expected : String} {v : Value} :
    v.asInteger low high expected = .ok n ↔
      ∃ i : Integer, v = .number (.integer i) ∧ i.val = n ∧ low ≤ n ∧ n ≤ high := by
  unfold asInteger
  split
  · next i =>
    split
    · next inside =>
      constructor
      · rintro ⟨⟩
        exact ⟨i, rfl, rfl, inside⟩
      · rintro ⟨_, same, rfl, -⟩
        cases same
        rfl
    · next outside =>
      constructor
      · nofun
      · rintro ⟨_, same, rfl, inside⟩
        cases same
        exact absurd inside outside
  · next other =>
    constructor
    · nofun
    · rintro ⟨i, rfl, -⟩
      exact absurd rfl (other i)

/-- A signed 64-bit integer is the integer that it is read from. -/
theorem Integer.ofInt64_ofInt {i : Integer} (small : i.val < 2 ^ 63) :
    Integer.ofInt64 (Int64.ofInt i.val) = i := by
  obtain ⟨n, least, greatest⟩ := i
  have same : (Int64.ofInt n).toInt = n := Int64.toInt_ofInt_of_le least small
  simp only [ofInt64, same]

theorem Integer.ofUInt32_ofNat {i : Integer} (natural : 0 ≤ i.val) (small : i.val < 2 ^ 32) :
    Integer.ofUInt32 (UInt32.ofNat i.val.toNat) = i := by
  obtain ⟨n, least, greatest⟩ := i
  dsimp only at natural small
  have bound : n.toNat < UInt32.size := by
    have size : UInt32.size = 2 ^ 32 := rfl
    omega
  have same : ((UInt32.ofNat n.toNat).toNat : Int) = n := by
    rw [UInt32.toNat_ofNat_of_lt' bound]
    exact Int.toNat_of_nonneg natural
  simp only [ofUInt32, same]

end Json

namespace Json

variable {depth : Nat} {bs rest : Octets}

theorem scalarAt_string_iff {s : String} :
    scalarAt "a string" Value.asString bs = .ok (s, rest) ↔ value depth bs = .ok (.string s, rest) := by
  rw [scalarAt_eq_ok_iff _ depth]
  · simp only [Value.asString_eq_ok_iff, exists_eq_right]
  · intro v s accepts
    rw [Value.asString_eq_ok_iff] at accepts
    subst accepts
    trivial

theorem Value.orNull_asString_eq_ok_iff {v : Value} {s? : Option String} :
    v.orNull asString = .ok s? ↔ v = Envelope.textOrNull s? := by
  cases s? with
  | none => simp [orNull_eq_ok_iff, Envelope.textOrNull]
  | some s =>
    simp only [orNull_eq_ok_iff, asString_eq_ok_iff, Envelope.textOrNull]
    grind

theorem scalarAt_textOrNull_iff {s : Option String} :
    scalarAt "a string" (Value.orNull Value.asString) bs = .ok (s, rest) ↔
      value depth bs = .ok (Envelope.textOrNull s, rest) := by
  rw [scalarAt_eq_ok_iff _ depth]
  · simp only [Value.orNull_asString_eq_ok_iff, exists_eq_right]
  · intro v s accepts
    rw [Value.orNull_asString_eq_ok_iff] at accepts
    subst accepts
    cases s <;> trivial

theorem scalarAt_int64_iff {n : Int} :
    scalarAt "i64" Value.asInt64 bs = .ok (n, rest) ↔
      ∃ i : Integer, value depth bs = .ok (.number (.integer i), rest) ∧ i.val = n ∧
        -2 ^ 63 ≤ i.val ∧ i.val < 2 ^ 63 := by
  rw [scalarAt_eq_ok_iff _ depth]
  · simp only [Value.asInt64, Value.asInteger_eq_ok_iff]
    constructor
    · rintro ⟨_, reads, i, rfl, rfl, least, greatest⟩
      exact ⟨i, reads, rfl, least, Int.lt_add_one_of_le greatest⟩
    · rintro ⟨i, reads, rfl, least, greatest⟩
      exact ⟨_, reads, i, rfl, rfl, least, Int.le_of_lt_add_one greatest⟩
  · intro v n accepts
    obtain ⟨i, rfl, -⟩ := Value.asInteger_eq_ok_iff.mp accepts
    trivial

theorem scalarAt_countOrNull_iff {n? : Option Int} :
    scalarAt "u32" (Value.orNull Value.asUInt32) bs = .ok (n?, rest) ↔
      (value depth bs = .ok (.null, rest) ∧ n? = none) ∨
      ∃ i : Integer, value depth bs = .ok (.number (.integer i), rest) ∧ n? = some i.val ∧
        0 ≤ i.val ∧ i.val < 2 ^ 32 := by
  rw [scalarAt_eq_ok_iff _ depth]
  · simp only [Value.orNull_eq_ok_iff, Value.asUInt32, Value.asInteger_eq_ok_iff]
    constructor
    · rintro ⟨v, reads, ⟨rfl, rfl⟩ | ⟨-, _, ⟨i, rfl, rfl, least, greatest⟩, rfl⟩⟩
      · exact .inl ⟨reads, rfl⟩
      · exact .inr ⟨i, reads, rfl, least, Int.lt_add_one_of_le greatest⟩
    · rintro (⟨reads, rfl⟩ | ⟨i, reads, rfl, least, greatest⟩)
      · exact ⟨_, reads, .inl ⟨rfl, rfl⟩⟩
      · exact ⟨_, reads, .inr ⟨nofun, _, ⟨i, rfl, rfl, least, Int.le_of_lt_add_one greatest⟩, rfl⟩⟩
  · intro v n? accepts
    rcases Value.orNull_eq_ok_iff.mp accepts with ⟨rfl, -⟩ | ⟨-, _, some, -⟩
    · trivial
    · obtain ⟨i, rfl, -⟩ := Value.asInteger_eq_ok_iff.mp some
      trivial

end Json

namespace Draft

/-- The reader of a known member leaves the others alone. -/
theorem keeps_of_readField {e e' : Envelope} {f : Field} {bs rest : Octets}
    (made : readField e f bs = .ok (e', rest)) :
    (∀ g, g ≠ f → e'.value g = e.value g) ∧ e'.extra = e.extra := by
  cases f <;>
  · obtain ⟨_, -, same⟩ := map_eq_ok.mp made
    cases same
    refine ⟨fun g other => ?_, rfl⟩
    cases g <;> first | rfl | exact absurd rfl other

/-- The reader of a known member takes the document that stands there, if it is of the member's kind. -/
theorem value_of_readField {e e' : Envelope} {f : Field} {bs rest : Octets}
    (made : readField e f bs = .ok (e', rest)) :
    Json.value (maxDepth - 1) bs = .ok (e'.value f, rest) ∧ f.Takes (e'.value f) := by
  have text (s? : Option String) :
      Envelope.textOrNull s? = .null ∨ ∃ s, Envelope.textOrNull s? = .string s := by
    cases s? with
    | none => exact .inl rfl
    | some s => exact .inr ⟨s, rfl⟩
  cases f with
  | ts =>
    obtain ⟨⟨n, left⟩, reads, same⟩ := map_eq_ok.mp made
    cases same
    obtain ⟨i, reads, rfl, least, greatest⟩ := scalarAt_int64_iff.mp reads
    rw [Envelope.value, Integer.ofInt64_ofInt greatest]
    exact ⟨reads, i, rfl, least, greatest⟩
  | retries =>
    obtain ⟨⟨n?, left⟩, reads, same⟩ := map_eq_ok.mp made
    cases same
    rcases scalarAt_countOrNull_iff.mp reads with ⟨reads, rfl⟩ | ⟨i, reads, rfl, least, greatest⟩
    · exact ⟨reads, .inl rfl⟩
    · simp only [Envelope.value, Option.map_some, Envelope.countOrNull,
        Integer.ofUInt32_ofNat least greatest]
      exact ⟨reads, .inr ⟨i, rfl, least, greatest⟩⟩
  | app =>
    obtain ⟨⟨s, left⟩, reads, same⟩ := map_eq_ok.mp made
    cases same
    exact ⟨scalarAt_string_iff.mp reads, s, rfl⟩
  | data =>
    obtain ⟨⟨v, left⟩, reads, same⟩ := map_eq_ok.mp made
    cases same
    exact ⟨reads, trivial⟩
  | trace | ns | originTopic | originGroup =>
    obtain ⟨⟨s?, left⟩, reads, same⟩ := map_eq_ok.mp made
    cases same
    exact ⟨scalarAt_textOrNull_iff.mp reads, text s?⟩

/-- A document of the kind of a known member is taken for it. -/
theorem readField_of_takes (e : Envelope) {f : Field} {v : Value} {bs rest : Octets}
    (reads : Json.value (maxDepth - 1) bs = .ok (v, rest)) (takes : f.Takes v) :
    ∃ e', readField e f bs = .ok (e', rest) := by
  cases f with
  | ts =>
    obtain ⟨i, rfl, least, greatest⟩ := takes
    exact ⟨_, map_eq_ok.mpr ⟨_, scalarAt_int64_iff.mpr ⟨i, reads, rfl, least, greatest⟩, rfl⟩⟩
  | retries =>
    rcases takes with rfl | ⟨i, rfl, least, greatest⟩
    · exact ⟨_, map_eq_ok.mpr ⟨_, scalarAt_countOrNull_iff.mpr (.inl ⟨reads, rfl⟩), rfl⟩⟩
    · exact ⟨_, map_eq_ok.mpr ⟨_, scalarAt_countOrNull_iff.mpr (.inr ⟨i, reads, rfl, least, greatest⟩), rfl⟩⟩
  | app =>
    obtain ⟨s, rfl⟩ := takes
    exact ⟨_, map_eq_ok.mpr ⟨_, scalarAt_string_iff.mpr reads, rfl⟩⟩
  | data => exact ⟨_, map_eq_ok.mpr ⟨_, reads, rfl⟩⟩
  | trace | ns | originTopic | originGroup =>
    rcases takes with rfl | ⟨s, rfl⟩
    · exact ⟨_, map_eq_ok.mpr ⟨_, scalarAt_textOrNull_iff (s := none).mpr reads, rfl⟩⟩
    · exact ⟨_, map_eq_ok.mpr ⟨_, scalarAt_textOrNull_iff (s := some s).mpr reads, rfl⟩⟩

/-! ### A draft and the members behind it -/

/-- A draft in which these members have been taken. -/
structure Reads (ms : List (String × Value)) (draft : Draft) : Prop where
  met : ∀ f, f ∈ draft.met ↔ f.given ms ≠ []
  fits : Fits ms
  describes : Describes ms draft.envelope

theorem Reads.nil : Reads [] empty := by
  constructor
  · intro f
    exact iff_of_false List.not_mem_nil (fun some => some rfl)
  · exact ⟨fun _ => Nat.zero_le 1, fun _ _ given => absurd given List.not_mem_nil⟩
  · refine ⟨fun _ => rfl, .nil, fun _ _ => ?_⟩
    exact iff_of_false List.not_mem_nil (fun last => nomatch last.2)

section Step

variable {ms : List (String × Value)} {draft : Draft} {key : String} {v : Value}

/-- A known member is taken if it has not been met. -/
theorem Reads.concat_known {f : Field} {e : Envelope} (reads : Reads ms draft)
    (known : Field.ofKey? key = some f) (new : f ∉ draft.met) (takes : f.Takes v) (said : e.value f = v)
    (keeps : ∀ g, g ≠ f → e.value g = draft.envelope.value g) (extra : e.extra = draft.envelope.extra) :
    Reads (ms ++ [(key, v)]) ⟨f :: draft.met, e⟩ := by
  have own : f.given (ms ++ [(key, v)]) = [v] := by
    have none : f.given ms = [] := not_not.mp fun some => new ((reads.met f).mpr some)
    rw [Field.given_concat, if_pos known, none, List.nil_append]
  have other {g : Field} (differ : g ≠ f) : g.given (ms ++ [(key, v)]) = g.given ms := by
    rw [Field.given_concat, if_neg, List.append_nil]
    intro same
    exact differ (Option.some.inj (same.symm.trans known))
  constructor
  · intro g
    by_cases same : g = f
    · subst same
      simp [own]
    · simp [same, other same, reads.met]
  · constructor
    · intro g
      by_cases same : g = f
      · subst same
        simp [own]
      · rw [other same]
        exact reads.fits.once g
    · intro g w given
      by_cases same : g = f
      · subst same
        rw [own, List.mem_singleton] at given
        exact given ▸ takes
      · rw [other same] at given
        exact reads.fits.kinds g w given
  · refine ⟨?_, extra ▸ reads.describes.sorted, ?_⟩
    · intro g
      by_cases same : g = f
      · subst same
        rw [own, List.headD_cons]
        exact said
      · rw [other same, ← reads.describes.known]
        exact keeps g same
    · intro k w
      dsimp only
      rw [extra, reads.describes.unknown]
      refine and_congr_right fun unknown => ?_
      have differ : key ≠ k := by
        rintro rfl
        rw [← Field.ofKey?_eq_none_iff, known] at unknown
        cases unknown
      rw [valuesOf_concat, if_neg differ, List.append_nil]

/-- An unknown member replaces an earlier one with its key. -/
theorem Reads.concat_unknown (reads : Reads ms draft) (unknown : Field.ofKey? key = none) :
    Reads (ms ++ [(key, v)])
      ⟨draft.met, { draft.envelope with extra := insertMember key v draft.envelope.extra }⟩ := by
  have same (f : Field) : f.given (ms ++ [(key, v)]) = f.given ms := by
    rw [Field.given_concat, if_neg (by simp [unknown]), List.append_nil]
  constructor
  · intro f
    rw [same]
    exact reads.met f
  · constructor
    · intro f
      rw [same]
      exact reads.fits.once f
    · intro f
      rw [same]
      exact reads.fits.kinds f
  · refine ⟨?_, sorted_insertMember reads.describes.sorted key v, ?_⟩
    · intro f
      rw [same, ← reads.describes.known]
      cases f <;> rfl
    · intro k w
      dsimp only
      rw [mem_insertMember_iff reads.describes.sorted, reads.describes.unknown, valuesOf_concat]
      by_cases own : k = key
      · subst own
        simp [← Field.ofKey?_eq_none_iff, unknown, eq_comm]
      · simp [own, Ne.symm own]

/-- A member that is taken is a member of the text. -/
theorem Reads.of_member {draft' : Draft} {bs rest : Octets} (reads : Reads ms draft)
    (made : member draft key bs = .ok (draft', rest)) :
    ∃ left v, colon bs = .ok left ∧ Json.value (maxDepth - 1) left = .ok (v, rest) ∧
      Reads (ms ++ [(key, v)]) draft' := by
  unfold member at made
  split at made
  · next f known =>
    split at made
    · cases made
    · next new =>
      obtain ⟨left, after, made⟩ := bind_eq_ok.mp made
      obtain ⟨⟨e, left'⟩, taken, made⟩ := bind_eq_ok.mp made
      cases made
      obtain ⟨reading, takes⟩ := value_of_readField taken
      obtain ⟨keeps, extra⟩ := keeps_of_readField taken
      exact ⟨left, e.value f, after, reading, reads.concat_known known new takes rfl keeps extra⟩
  · next unknown =>
    obtain ⟨left, after, made⟩ := bind_eq_ok.mp made
    obtain ⟨⟨v, left'⟩, taken, made⟩ := bind_eq_ok.mp made
    cases made
    exact ⟨left, v, after, taken, reads.concat_unknown unknown⟩

/-- A member of the text is taken if it fits with those before it. -/
theorem Reads.exists_member {bs left rest : Octets} (reads : Reads ms draft) (after : colon bs = .ok left)
    (reading : Json.value (maxDepth - 1) left = .ok (v, rest)) (fits : Fits (ms ++ [(key, v)])) :
    ∃ draft', member draft key bs = .ok (draft', rest) ∧ Reads (ms ++ [(key, v)]) draft' := by
  have made : ∃ draft', member draft key bs = .ok (draft', rest) := by
    unfold member
    split
    · next f known =>
      have given : f.given (ms ++ [(key, v)]) = f.given ms ++ [v] := by
        rw [Field.given_concat, if_pos known]
      have new : f ∉ draft.met := by
        intro met
        have once := fits.once f
        rw [given, List.length_append, List.length_singleton] at once
        have some := List.length_pos_of_ne_nil ((reads.met f).mp met)
        omega
      have takes : f.Takes v := fits.kinds f v (given ▸ List.mem_append_right _ (List.mem_singleton_self v))
      obtain ⟨e, taken⟩ := readField_of_takes draft.envelope reading takes
      rw [if_neg new]
      exact ⟨_, bind_eq_ok.mpr ⟨left, after, bind_eq_ok.mpr ⟨_, taken, rfl⟩⟩⟩
    · exact ⟨_, bind_eq_ok.mpr ⟨left, after, bind_eq_ok.mpr ⟨_, reading, rfl⟩⟩⟩
  obtain ⟨draft', made⟩ := made
  obtain ⟨left', w, after', reading', reads'⟩ := reads.of_member made
  rw [after] at after'
  cases after'
  rw [reading] at reading'
  cases reading'
  exact ⟨draft', made, reads'⟩

end Step

/-! ### The members of an object -/

variable {ms : List (String × Value)} {draft : Draft} {bs rest : Octets}

/-- The members that make a draft are those of the document. -/
theorem reads_of_foldMembers
    (made : foldMembers member (bs.length + 1) true empty bs = .ok (draft, rest)) :
    ∃ ms, members (Json.value (maxDepth - 1)) bs = .ok (ms, rest) ∧ Reads ms draft := by
  obtain ⟨-, matched⟩ := foldMembers_matched (P := fun _ => True)
    (R := fun draft (read : List (String × Value)) => Reads read.reverse draft)
    (fun _ _ _ _ _ _ _ => trivial)
    (fun draft read key bs draft' rest one _ reads => by
      obtain ⟨left, v, after, reading, reads'⟩ := reads.of_member one
      rw [← List.reverse_cons] at reads'
      exact ⟨_, collect_eq_ok_iff.mpr ⟨left, v, after, reading, rfl⟩, reads'⟩)
    made trivial
  obtain ⟨read, folded, reads⟩ := matched [] Reads.nil
  rw [← List.reverse_reverse read] at folded
  exact ⟨read.reverse, members_eq_ok_iff.mpr folded, reads⟩

/-- Members that fit make a draft. -/
theorem exists_foldMembers (made : members (Json.value (maxDepth - 1)) bs = .ok (ms, rest))
    (fits : Fits ms) :
    ∃ draft, foldMembers member (bs.length + 1) true empty bs = .ok (draft, rest) ∧ Reads ms draft := by
  rw [← List.reverse_reverse ms] at fits ⊢
  -- if all members fit, those before any of them do, so the draft keeps up with the document
  obtain ⟨-, matched⟩ := foldMembers_matched (P := fun read => Fits read.reverse)
    (R := fun (read : List (String × Value)) draft => Reads read.reverse draft)
    (fun read key bs read' rest one fits => by
      obtain ⟨left, v, -, -, rfl⟩ := collect_eq_ok_iff.mp one
      rw [List.reverse_cons] at fits
      exact fits.of_append)
    (fun read draft key bs read' rest one fits reads => by
      obtain ⟨left, v, after, reading, rfl⟩ := collect_eq_ok_iff.mp one
      rw [List.reverse_cons] at fits ⊢
      exact reads.exists_member after reading fits)
    (members_eq_ok_iff.mp made) fits
  exact matched empty Reads.nil

end Draft

namespace Envelope

variable {bs : Octets} {ms : List (String × Value)} {e : Envelope}

/-- What is read as an envelope lists members. -/
theorem lists_of_read (made : read bs = .ok e) : ∃ ms, Lists bs ms ∧ Fits ms ∧ Describes ms e := by
  unfold read at made
  split at made
  · cases made
  · next b after starts =>
    split at made
    · next opens =>
      subst opens
      obtain ⟨draft, whole, rfl⟩ := map_eq_ok.mp made
      obtain ⟨rest, folded, nothing⟩ := complete_eq_ok_iff.mp whole
      obtain ⟨ms, listed, reads⟩ := Draft.reads_of_foldMembers folded
      exact ⟨ms, ⟨after, starts, complete_eq_ok_iff.mpr ⟨rest, listed, nothing⟩⟩, reads.fits, reads.describes⟩
    · cases made

/-- What lists members that fit is read as an envelope. -/
theorem exists_read_of_lists (lists : Lists bs ms) (fits : Fits ms) : ∃ e, read bs = .ok e := by
  obtain ⟨after, starts, whole⟩ := lists
  obtain ⟨rest, listed, nothing⟩ := complete_eq_ok_iff.mp whole
  obtain ⟨draft, folded, -⟩ := Draft.exists_foldMembers listed fits
  refine ⟨draft.envelope, ?_⟩
  rw [read, starts]
  simp only [if_pos]
  exact map_eq_ok.mpr ⟨draft, complete_eq_ok_iff.mpr ⟨rest, folded, nothing⟩, rfl⟩

theorem read_eq_ok_iff (lists : Lists bs ms) : read bs = .ok e ↔ Fits ms ∧ Describes ms e := by
  constructor
  · intro made
    obtain ⟨ms', lists', fits, describes⟩ := lists_of_read made
    obtain rfl := lists.unique lists'
    exact ⟨fits, describes⟩
  · rintro ⟨fits, describes⟩
    obtain ⟨e', made⟩ := exists_read_of_lists lists fits
    obtain ⟨ms', lists', -, describes'⟩ := lists_of_read made
    obtain rfl := lists.unique lists'
    rw [describes.unique describes']
    exact made

/-- A text that lists the same members in another order holds the same envelope or none as well. -/
theorem read_perm {bs' : Octets} {ms' : List (String × Value)} (lists : Lists bs ms)
    (lists' : Lists bs' ms') (perm : ms.Perm ms') (stable : ∀ key, valuesOf key ms = valuesOf key ms') :
    read bs' = .ok e ↔ read bs = .ok e := by
  rw [read_eq_ok_iff lists, read_eq_ok_iff lists']
  constructor
  · rintro ⟨fits, describes⟩
    exact ⟨fits.perm perm.symm, describes.perm fits perm.symm fun key => (stable key).symm⟩
  · rintro ⟨fits, describes⟩
    exact ⟨fits.perm perm, describes.perm fits perm stable⟩

/-- Which texts are envelopes: a text that is no document is none, nor is a document that is no object. A
text that holds an object lists members of which the object is made; it holds an envelope exactly if the
members fit, which is the one that they describe, and any other text that lists the same members, those of
one key in the same order, holds the same envelope or none as well. -/
theorem read_accepts (bs : Octets) :
    (∀ refusal, Value.read bs = .error refusal → ∃ refusal', read bs = .error refusal') ∧
    (∀ v, Value.read bs = .ok v → (∀ os, v ≠ .object os) → ∃ refusal, read bs = .error refusal) ∧
    ∀ os, Value.read bs = .ok (.object os) → ∃ ms, Lists bs ms ∧ os = sortMembers ms ∧
      ((∃ e, read bs = .ok e) ↔ Fits ms) ∧
      (∀ e, read bs = .ok e ↔ Fits ms ∧ Describes ms e) ∧
      ∀ bs' ms', Lists bs' ms' → ms.Perm ms' → (∀ key, valuesOf key ms = valuesOf key ms') →
        ∀ e, read bs' = .ok e ↔ read bs = .ok e := by
  have refused (noObject : ∀ os, Value.read bs ≠ .ok (.object os)) :
      ∃ refusal, read bs = .error refusal := by
    cases made : read bs with
    | error refusal => exact ⟨refusal, rfl⟩
    | ok e =>
      obtain ⟨ms, lists, -⟩ := lists_of_read made
      exact absurd (read_object_iff.mpr ⟨ms, lists, rfl⟩) (noObject _)
  refine ⟨?_, ?_, ?_⟩
  · intro refusal failed
    refine refused fun os => ?_
    rw [failed]
    nofun
  · intro v document noObject
    refine refused fun os => ?_
    rw [document]
    rintro ⟨⟩
    exact noObject os rfl
  · intro os object
    obtain ⟨ms, lists, made⟩ := read_object_iff.mp object
    refine ⟨ms, lists, made, ⟨?_, exists_read_of_lists lists⟩, fun e => read_eq_ok_iff lists,
      fun bs' ms' lists' perm stable e => read_perm lists lists' perm stable⟩
    rintro ⟨e, made⟩
    exact ((read_eq_ok_iff lists).mp made).1

namespace Sample

/-- A text with an older key and a repeated unknown one. -/
def labels : Octets := octetsOf "\x7b\"x\":1,\"np\":null,\"x\":2\x7d"

/-- The same members, the older key last. -/
def turnedLabels : Octets := octetsOf "\x7b\"x\":1,\"x\":2,\"np\":null\x7d"

/-- A small number. -/
def number (n : Fin 10) : Value := .number (.integer ⟨n, by omega, by omega⟩)

theorem lists_labels : Lists labels [("x", number 1), ("np", .null), ("x", number 2)] :=
  ⟨labels.drop 1, by decide +kernel, by decide +kernel⟩

theorem lists_turnedLabels : Lists turnedLabels [("x", number 1), ("x", number 2), ("np", .null)] :=
  ⟨turnedLabels.drop 1, by decide +kernel, by decide +kernel⟩

end Sample

/-- Both texts hold the same envelope, in which the unknown key has its last value; a text that is cut
short and an array hold none. -/
theorem sample_read_accepts :
    (∃ e, read Sample.labels = .ok e ∧ e.extra = [("x", Sample.number 2)] ∧
      read Sample.turnedLabels = .ok e) ∧
    (∃ refusal, read (octetsOf "\x7b") = .error refusal) ∧
    ∃ refusal, read (octetsOf "[0]") = .error refusal := by
  have object : Value.read Sample.labels = .ok (.object [("np", .null), ("x", Sample.number 2)]) := by
    decide +kernel
  obtain ⟨ms, lists, -, -, -, perm⟩ := (read_accepts Sample.labels).2.2 _ object
  obtain rfl := lists.unique Sample.lists_labels
  have made : ∃ e, read Sample.labels = .ok e ∧ e.extra = [("x", Sample.number 2)] :=
    ⟨{ blank with extra := [("x", Sample.number 2)] }, by decide +kernel, rfl⟩
  obtain ⟨e, made, extra⟩ := made
  have cut : Value.read (octetsOf "\x7b") = .error (.unfinished .object) := by decide +kernel
  have array : Value.read (octetsOf "[0]") = .ok (.array [Sample.number 0]) := by decide +kernel
  refine ⟨⟨e, made, extra, (perm _ _ Sample.lists_turnedLabels ?_ ?_ e).mpr made⟩,
    (read_accepts _).1 _ cut, (read_accepts _).2.1 _ array nofun⟩
  · exact .cons _ (.swap ..)
  · intro key
    simp only [valuesOf, List.filter_cons, List.filter_nil]
    grind

end Envelope

end EventPipeline
