import EventPipeline.Proofs.Envelope.Readable
import EventPipeline.Proofs.Json.Members

/-! # Members as an envelope

Members of an object that are meant as an envelope give values for the known members, under any of their
keys, and for other keys. They fit if each known member is given at most once and with a value of its kind
(`Fits`); an envelope is described by them if it says what they give, is blank where they give nothing and
has the last of the values of each unknown key (`Describes`). Neither depends on the order of the members,
except for the values of one key, and no two envelopes are described by the same members.
-/

namespace EventPipeline

open Json

/-! ### What members say -/

/-- The values that members give for a known member, in their order. -/
def Field.given (f : Field) (ms : List (String × Value)) : List Value :=
  (ms.filter fun m => Field.ofKey? m.1 = some f).map Prod.snd

/-- Whether a value is of the kind of a known member. -/
def Field.Takes : Field → Value → Prop
  | .ts, v => ∃ n : Integer, v = .number (.integer n) ∧ -2 ^ 63 ≤ n.val ∧ n.val < 2 ^ 63
  | .app, v => ∃ s, v = .string s
  | .data, _ => True
  | .retries, v => v = .null ∨ ∃ n : Integer, v = .number (.integer n) ∧ 0 ≤ n.val ∧ n.val < 2 ^ 32
  | .trace, v | .ns, v | .originTopic, v | .originGroup, v => v = .null ∨ ∃ s, v = .string s

/-- A count or null. -/
def Envelope.countOrNull : Option UInt32 → Value
  | some n => .number (.integer (.ofUInt32 n))
  | none => .null

/-- What an envelope says under a known key, an absent member counting as null. -/
def Envelope.value (e : Envelope) : Field → Value
  | .ts => .number (.integer (.ofInt64 e.ts))
  | .trace => textOrNull e.trace
  | .app => .string e.app
  | .ns => textOrNull e.ns
  | .data => e.data
  | .retries => countOrNull e.retries
  | .originTopic => textOrNull e.originTopic
  | .originGroup => textOrNull e.originGroup

/-- Members of which an envelope can be made. -/
structure Fits (ms : List (String × Value)) : Prop where
  once : ∀ f : Field, (f.given ms).length ≤ 1
  kinds : ∀ f : Field, ∀ v ∈ f.given ms, f.Takes v

/-- The envelope says what the members say: the known ones, as in a blank envelope where they are absent,
and for each other key the last value. -/
structure Describes (ms : List (String × Value)) (e : Envelope) : Prop where
  known : ∀ f : Field, e.value f = (f.given ms).headD (Envelope.blank.value f)
  sorted : Sorted e.extra
  unknown : ∀ key v, (key, v) ∈ e.extra ↔ key ∉ Field.names ∧ (valuesOf key ms).getLast? = some v

theorem Field.given_concat (f : Field) (ms : List (String × Value)) (m : String × Value) :
    f.given (ms ++ [m]) = f.given ms ++ if Field.ofKey? m.1 = some f then [m.2] else [] := by
  rw [given, List.filter_append, List.map_append, ← given]
  by_cases same : Field.ofKey? m.1 = some f <;> simp [same]

theorem Fits.of_append {ms ms' : List (String × Value)} (fits : Fits (ms ++ ms')) : Fits ms := by
  have parts (f : Field) : f.given (ms ++ ms') = f.given ms ++ f.given ms' := by
    simp [Field.given]
  constructor
  · intro f
    have once := fits.once f
    rw [parts, List.length_append] at once
    exact Nat.le_of_add_right_le once
  · intro f v given
    apply fits.kinds f v
    rw [parts]
    exact List.mem_append_left _ given

/-! ### Members in another order -/

section Order

variable {ms ms' : List (String × Value)} {e e' : Envelope}

theorem Field.given_perm (f : Field) (perm : ms.Perm ms') : (f.given ms).Perm (f.given ms') :=
  (perm.filter _).map _

theorem Fits.perm (fits : Fits ms) (perm : ms.Perm ms') : Fits ms' := by
  constructor
  · intro f
    rw [← (f.given_perm perm).length_eq]
    exact fits.once f
  · intro f v given
    exact fits.kinds f v ((f.given_perm perm).mem_iff.mpr given)

/-- What a known member is given for cannot depend on the order of members if it is given at most once. -/
theorem Fits.given_eq (fits : Fits ms) (perm : ms.Perm ms') (f : Field) : f.given ms = f.given ms' := by
  have same := f.given_perm perm
  have once := fits.once f
  match given : f.given ms with
  | [] =>
    rw [given] at same
    exact (List.nil_perm.mp same).symm
  | [v] =>
    rw [given] at same
    exact List.singleton_perm.mp same
  | _ :: _ :: _ =>
    rw [given] at once
    simp at once

theorem Describes.perm (describes : Describes ms e) (fits : Fits ms) (perm : ms.Perm ms')
    (stable : ∀ key, valuesOf key ms = valuesOf key ms') : Describes ms' e := by
  refine ⟨?_, describes.sorted, ?_⟩
  · intro f
    rw [← fits.given_eq perm]
    exact describes.known f
  · intro key v
    rw [← stable]
    exact describes.unknown key v

end Order

/-! ### One envelope at most -/

theorem Envelope.textOrNull_inj {s s' : Option String} (same : textOrNull s = textOrNull s') : s = s' := by
  cases s <;> cases s' <;> cases same <;> rfl

theorem Envelope.countOrNull_inj {n n' : Option UInt32} (same : countOrNull n = countOrNull n') : n = n' := by
  match n, n' with
  | none, none => rfl
  | some n, some n' =>
    have counts := congrArg Integer.val (Number.integer.inj (Value.number.inj same))
    exact congrArg some (UInt32.toNat_inj.mp (Int.ofNat_inj.mp counts))

/-- An envelope is determined by what it says under the known keys and its other members. -/
theorem Envelope.eq_of_value_eq {e e' : Envelope} (known : ∀ f, e.value f = e'.value f)
    (extra : e.extra = e'.extra) : e = e' := by
  obtain ⟨ts, trace, app, ns, data, retries, originTopic, originGroup, extra'⟩ := e
  obtain rfl := textOrNull_inj (known .trace)
  obtain rfl := textOrNull_inj (known .ns)
  obtain rfl := textOrNull_inj (known .originTopic)
  obtain rfl := textOrNull_inj (known .originGroup)
  obtain rfl := Value.string.inj (known .app)
  obtain rfl : data = _ := known .data
  obtain rfl : ts = e'.ts := by
    have same := Number.integer.inj (Value.number.inj (known .ts))
    exact Int64.toInt_inj.mp (congrArg Integer.val same)
  obtain rfl := countOrNull_inj (known .retries)
  cases extra
  rfl

theorem Describes.unique {ms : List (String × Value)} {e e' : Envelope} (describes : Describes ms e)
    (describes' : Describes ms e') : e = e' := by
  apply Envelope.eq_of_value_eq
  · intro f
    rw [describes.known, describes'.known]
  · have distinct {members : List (String × Value)} (sorted : Sorted members) : members.Nodup := by
      refine sorted.imp ?_
      rintro m _ less rfl
      exact String.lt_irrefl _ less
    have perm : e.extra.Perm e'.extra := by
      rw [List.perm_ext_iff_of_nodup (distinct describes.sorted) (distinct describes'.sorted)]
      intro ⟨key, v⟩
      rw [describes.unknown, describes'.unknown]
    refine perm.eq_of_pairwise ?_ describes.sorted describes'.sorted
    intro m m' _ _ less more
    exact absurd more (String.lt_asymm less)

end EventPipeline
