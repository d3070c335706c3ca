import EventPipeline.Worker.Basic

/-! # Spans of time as numbers

What is computed with whole seconds and nanoseconds apart is computed with the number of nanoseconds: the
carry is exact, and where a product stays at the greatest span it is too large for any span. Words of 64
bits are enough for it (`Duration.wordProduct?_eq_some_iff`): the nanoseconds never overflow, and where the seconds
do, before or after the carry, the product is too large as well. So a pause is exact
(`Settings.backoff_exact`).
-/

namespace EventPipeline

theorem Timer.outlastedBy_iff {t : Timer} {d : Duration} :
    t.outlastedBy d = true ↔ t.limit ≤ d.toNanos := decide_eq_true_iff

namespace Duration

theorem toNanos_lt (d : Duration) : d.toNanos < 0x1_0000_0000_0000_0000 * 1_000_000_000 := by
  have secs := d.secs_lt
  have nanos := d.nanos_lt
  unfold toNanos
  omega

theorem toNanos_greatest : greatest.toNanos = 0x1_0000_0000_0000_0000 * 1_000_000_000 - 1 := rfl

theorem isZero_iff {d : Duration} : d.isZero = true ↔ d.toNanos = 0 := by
  rw [isZero, Bool.and_eq_true, beq_iff_eq, beq_iff_eq, toNanos]
  omega

theorem toNanos_ne_zero_of_outlastedBy {t : Timer} {d : Duration}
    (outlasts : t.outlastedBy d = true) : d.toNanos ≠ 0 :=
  Nat.ne_of_gt (Nat.lt_of_lt_of_le t.limit_pos (Timer.outlastedBy_iff.mp outlasts))

theorem shorter_iff {d e : Duration} : d.shorter e = true ↔ d.toNanos < e.toNanos := by
  have nanos := d.nanos_lt
  have nanos' := e.nanos_lt
  rw [shorter, Bool.or_eq_true, Bool.and_eq_true, decide_eq_true_iff, decide_eq_true_iff, beq_iff_eq,
    toNanos, toNanos]
  omega

theorem toNanos_min (d e : Duration) : (d.min e).toNanos = Min.min d.toNanos e.toNanos := by
  unfold Duration.min
  split
  · next shorter => exact (Nat.min_eq_right (Nat.le_of_lt (shorter_iff.mp shorter))).symm
  · next shorter =>
    rw [shorter_iff, Nat.not_lt] at shorter
    exact (Nat.min_eq_left shorter).symm

/-- Seconds and nanoseconds are multiplied apart. -/
theorem mul_toNanos (d : Duration) (n : Nat) :
    n * d.toNanos = d.secs * n * 1_000_000_000 + d.nanos * n := by
  rw [toNanos, Nat.mul_add, Nat.mul_comm n d.nanos, Nat.mul_comm n, Nat.mul_right_comm]

/-- A product is exact, or larger than any span. -/
theorem toNanos_saturatingMul (d : Duration) (n : Nat) :
    (d.saturatingMul n).toNanos = Min.min (n * d.toNanos) greatest.toNanos := by
  have split : n * d.toNanos = (d.secs * n + d.nanos * n / 1_000_000_000) * 1_000_000_000 +
      d.nanos * n % 1_000_000_000 := by
    rw [mul_toNanos, Nat.add_mul, Nat.add_assoc, Nat.div_add_mod']
  have carry := Nat.mod_lt (d.nanos * n) (by decide : 0 < 1_000_000_000)
  unfold saturatingMul
  dsimp only
  rw [toNanos_greatest, split]
  split
  · next fits =>
    rw [toNanos, Nat.min_eq_left]
    omega
  · next overflows =>
    rw [toNanos_greatest, Nat.min_eq_right]
    omega

theorem toNanos_injective : Function.Injective toNanos := by
  intro d e same
  have nanos := d.nanos_lt
  have nanos' := e.nanos_lt
  unfold toNanos at same
  obtain ⟨secs, nanos⟩ : d.secs = e.secs ∧ d.nanos = e.nanos := by omega
  cases d
  cases e
  cases secs
  cases nanos
  rfl

/-! ### Products in words -/

/-- The product of two words, unless it is too large for a word. -/
def mulWord? (a b : UInt64) : Option UInt64 :=
  if a.toNat * b.toNat < UInt64.size then some (a * b) else none

/-- The sum of two words, unless it is too large for a word. -/
def addWord? (a b : UInt64) : Option UInt64 :=
  if a.toNat + b.toNat < UInt64.size then some (a + b) else none

/-- The seconds and nanoseconds of a product as they come out of words: there are none if the seconds
are too large for a word, alone or together with the seconds that are carried over. -/
def wordProduct? (secs nanos : UInt64) (n : UInt32) : Option (UInt64 × UInt64) :=
  let product := nanos * n.toUInt64
  (mulWord? secs n.toUInt64).bind fun whole =>
    (addWord? whole (product / 1_000_000_000)).map fun secs => (secs, product % 1_000_000_000)

theorem mulWord?_eq_some_iff {a b c : UInt64} :
    mulWord? a b = some c ↔ c.toNat = a.toNat * b.toNat := by
  have bound := c.toNat_lt
  unfold mulWord?
  split
  · next fits =>
    rw [Option.some_inj, ← UInt64.toNat_inj, UInt64.toNat_mul, Nat.mod_eq_of_lt fits, eq_comm]
  · next overflows =>
    simp only [UInt64.size] at overflows
    simp only [reduceCtorEq, false_iff]
    omega

theorem addWord?_eq_some_iff {a b c : UInt64} :
    addWord? a b = some c ↔ c.toNat = a.toNat + b.toNat := by
  have bound := c.toNat_lt
  unfold addWord?
  split
  · next fits =>
    rw [Option.some_inj, ← UInt64.toNat_inj, UInt64.toNat_add, Nat.mod_eq_of_lt fits, eq_comm]
  · next overflows =>
    simp only [UInt64.size] at overflows
    simp only [reduceCtorEq, false_iff]
    omega

/-- The nanoseconds of a span taken as often as a word of 32 bits can say fit into a word. -/
theorem toNat_nanos_mul (d : Duration) (n : UInt32) :
    (UInt64.ofNat d.nanos * n.toUInt64).toNat = d.nanos * n.toNat := by
  have nanos := d.nanos_lt
  have times := n.toNat_lt
  have fits : d.nanos * n.toNat < 1_000_000_000 * 2 ^ 32 := Nat.mul_lt_mul'' nanos times
  rw [UInt64.toNat_mul, UInt64.toNat_ofNat', UInt32.toNat_toUInt64, Nat.mod_eq_of_lt (by omega : d.nanos < 2 ^ 64)]
  exact Nat.mod_eq_of_lt (by omega)

/-- The words of a product are those of the exact product. -/
theorem wordProduct?_eq_some_iff {d : Duration} {n : UInt32} {secs nanos : UInt64} :
    wordProduct? (.ofNat d.secs) (.ofNat d.nanos) n = some (secs, nanos) ↔
      secs.toNat * 1_000_000_000 + nanos.toNat = n.toNat * d.toNanos ∧
        nanos.toNat < 1_000_000_000 := by
  have whole : (UInt64.ofNat d.secs).toNat = d.secs := UInt64.toNat_ofNat_of_lt' d.secs_lt
  have product := toNat_nanos_mul d n
  have billion : (1_000_000_000 : UInt64).toNat = 1_000_000_000 := rfl
  rw [mul_toNanos, ← product]
  simp only [wordProduct?, Option.bind_eq_some_iff, Option.map_eq_some_iff, mulWord?_eq_some_iff,
    addWord?_eq_some_iff, Prod.mk.injEq, UInt64.toNat_div, UInt32.toNat_toUInt64, whole, billion]
  generalize UInt64.ofNat d.nanos * n.toUInt64 = product
  generalize d.secs * n.toNat = seconds
  have bound := secs.toNat_lt
  constructor
  · rintro ⟨alone, exact, _, carried, rfl, rfl⟩
    rw [carried, exact, UInt64.toNat_mod, billion]
    omega
  · rintro ⟨same, below⟩
    have alone : (UInt64.ofNat seconds).toNat = seconds :=
      UInt64.toNat_ofNat_of_lt' (by rw [UInt64.size]; omega)
    refine ⟨.ofNat seconds, alone, secs, ?_, rfl, ?_⟩
    · rw [alone]
      omega
    · rw [← UInt64.toNat_inj, UInt64.toNat_mod, billion]
      omega

/-- There are no words for a product exactly if it is larger than any span. -/
theorem wordProduct?_eq_none_iff {d : Duration} {n : UInt32} :
    wordProduct? (.ofNat d.secs) (.ofNat d.nanos) n = none ↔ greatest.toNanos < n.toNat * d.toNanos := by
  rw [toNanos_greatest, Option.eq_none_iff_forall_ne_some]
  generalize product : n.toNat * d.toNanos = total
  constructor
  · refine fun none => Nat.lt_of_not_le fun fits => ?_
    have secs : (UInt64.ofNat (total / 1_000_000_000)).toNat = total / 1_000_000_000 :=
      UInt64.toNat_ofNat_of_lt' (by rw [UInt64.size]; omega)
    have nanos : (UInt64.ofNat (total % 1_000_000_000)).toNat = total % 1_000_000_000 :=
      UInt64.toNat_ofNat_of_lt' (by rw [UInt64.size]; omega)
    apply none (.ofNat (total / 1_000_000_000), .ofNat (total % 1_000_000_000))
    rw [wordProduct?_eq_some_iff, secs, nanos, product]
    omega
  · rintro long ⟨secs, nanos⟩ words
    have bound := secs.toNat_lt
    rw [wordProduct?_eq_some_iff, product] at words
    omega

/-- A span taken `n` times, its product made of words. -/
def wordMul (d : Duration) (n : UInt32) : Duration :=
  match words : wordProduct? (.ofNat d.secs) (.ofNat d.nanos) n with
  | some (secs, nanos) =>
    ⟨secs.toNat, nanos.toNat, secs.toNat_lt, (wordProduct?_eq_some_iff.mp words).2⟩
  | none => greatest

theorem wordMul_eq (d : Duration) (n : UInt32) : d.wordMul n = d.saturatingMul n.toNat := by
  apply toNanos_injective
  rw [toNanos_saturatingMul]
  unfold wordMul
  split
  · next secs nanos words =>
    have exact := (wordProduct?_eq_some_iff.mp words).1
    have fits := toNanos_lt ⟨secs.toNat, nanos.toNat, secs.toNat_lt, (wordProduct?_eq_some_iff.mp words).2⟩
    rw [toNanos, exact] at fits
    rw [toNanos, exact, toNanos_greatest, Nat.min_eq_left]
    omega
  · next none => rw [Nat.min_eq_right (Nat.le_of_lt (wordProduct?_eq_none_iff.mp none))]

end Duration

/-- The pause after a streak of failures is so many units, up to the longest pause, to the nanosecond. -/
theorem Settings.toNanos_backoff (s : Settings) (failures : Nat) :
    (s.backoff failures).toNanos =
      min (failures * s.backoffUnit.toNanos) s.maxBackoff.toNanos := by
  have bound := s.maxBackoff.toNanos_lt
  rw [backoff, Duration.toNanos_min, Duration.toNanos_saturatingMul, Duration.toNanos_greatest]
  omega

/-- If a clock can tell the longest pause it can tell all of them. -/
theorem Settings.outlastedBy_backoff {s : Settings} {t : Timer}
    (brief : t.outlastedBy s.maxBackoff = false) (failures : Nat) :
    t.outlastedBy (s.backoff failures) = false := by
  rw [Bool.eq_false_iff, ne_eq, Timer.outlastedBy_iff] at brief ⊢
  rw [s.toNanos_backoff]
  omega

/-- A pause is exact. What words of 64 bits make of it is the number of units that the streak has, up to the
longest pause, to the nanosecond; where a word overflows, it is the longest pause. More failures, a longer
unit and a longer longest pause never make it shorter. -/
theorem Settings.backoff_exact (s : Settings) (n : UInt32) :
    s.backoff n.toNat = (s.backoffUnit.wordMul n).min s.maxBackoff ∧
    (s.backoff n.toNat).toNanos = min (n.toNat * s.backoffUnit.toNanos) s.maxBackoff.toNanos ∧
    (s.backoff n.toNat).nanos < 1_000_000_000 ∧
    (Duration.wordProduct? (.ofNat s.backoffUnit.secs) (.ofNat s.backoffUnit.nanos) n = none →
      s.backoff n.toNat = s.maxBackoff) ∧
    ∀ (s' : Settings) (n' : UInt32), n ≤ n' → s.backoffUnit.toNanos ≤ s'.backoffUnit.toNanos →
      s.maxBackoff.toNanos ≤ s'.maxBackoff.toNanos →
      (s.backoff n.toNat).toNanos ≤ (s'.backoff n'.toNat).toNanos := by
  refine ⟨by rw [Duration.wordMul_eq, backoff], s.toNanos_backoff n.toNat, (s.backoff n.toNat).nanos_lt, ?_, ?_⟩
  · intro overflows
    have long := Duration.wordProduct?_eq_none_iff.mp overflows
    have bound := s.maxBackoff.toNanos_lt
    apply Duration.toNanos_injective
    rw [toNanos_backoff, Nat.min_eq_right]
    rw [Duration.toNanos_greatest] at long
    omega
  · intro s' n' more longer later
    have product := Nat.mul_le_mul (UInt32.le_iff_toNat_le.mp more) longer
    rw [toNanos_backoff, toNanos_backoff]
    omega

/-- Three times this unit fits into a word of seconds only without the second that is carried over. -/
theorem Settings.sample_backoff_exact : ∃ s : Settings,
    Duration.mulWord? (.ofNat s.backoffUnit.secs) 3 = some 0xFFFF_FFFF_FFFF_FFFF ∧
    Duration.wordProduct? (.ofNat s.backoffUnit.secs) (.ofNat s.backoffUnit.nanos) 3 = none ∧
    s.backoff 3 = s.maxBackoff ∧ (s.backoff 2).toNanos ≤ (s.backoff 3).toNanos := by
  let s : Settings :=
    ⟨.zero, .ofSecs 3600, ⟨0x5555_5555_5555_5555, 400_000_000, by decide, by decide⟩⟩
  have overflows :
      Duration.wordProduct? (.ofNat s.backoffUnit.secs) (.ofNat s.backoffUnit.nanos) 3 = none := by decide
  obtain ⟨-, -, -, longest, -⟩ := s.backoff_exact 3
  obtain ⟨-, -, -, -, grows⟩ := s.backoff_exact 2
  exact ⟨s, by decide, overflows, longest overflows, grows s 3 (by decide) (Nat.le_refl _) (Nat.le_refl _)⟩

end EventPipeline
