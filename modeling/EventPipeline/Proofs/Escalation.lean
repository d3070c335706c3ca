import EventPipeline.Escalation
import EventPipeline.Proofs.Envelope.RoundTrip

/-! # What a failed event becomes

An event that has failed fewer than `maxFailures` times goes on to the retry topic with one more
failure and a complete origin; any other goes to the dead-letter topic as it is. Either way the
published event is read back as what was published.
-/

namespace EventPipeline

/-- The event as it is published for its next attempt. -/
def Envelope.retried (e : Envelope) (group topic : String) : Envelope :=
  { e with
    retries := some (e.retryCount + 1)
    originTopic := some (e.originTopic.getD topic)
    originGroup := some (e.originGroup.getD group) }

namespace FailureTopics

variable {f : FailureTopics} {e e' : Envelope} {group topic : String} {path : Escalation}

/-- What a plan can be. -/
theorem plan?_cases (planned : f.plan? e group topic = some (path, e')) :
    (path = .retry (e.retryCount + 1) ∧ e.retryCount < maxFailures ∧ e' = e.retried group topic) ∨
      (path = .deadLetter e.retryCount ∧ maxFailures ≤ e.retryCount ∧ e' = e) := by
  unfold plan? at planned
  split at planned
  · cases planned
  split at planned
  · next exhausted =>
    cases planned
    exact .inr ⟨rfl, exhausted, rfl⟩
  · next remaining =>
    cases planned
    exact .inl ⟨rfl, UInt32.not_le.mp remaining, rfl⟩

/-- There is a plan for every event that is not addressed to the retry path. -/
theorem plan?_eq_none_iff :
    f.plan? e group topic = none ↔ f.isReservedTopic topic = true ∨ group = f.retryGroup := by
  unfold plan?
  split
  · next reserved => simpa using reserved
  · next free =>
    have free' : ¬ (f.isReservedTopic topic = true ∨ group = f.retryGroup) := by simpa using free
    split <;> simp [free']

theorem wellFormed_of_plan? (formed : e.WellFormed)
    (planned : f.plan? e group topic = some (path, e')) : e'.WellFormed := by
  rcases plan?_cases planned with ⟨-, -, rfl⟩ | ⟨-, -, rfl⟩
  · exact formed.congr rfl rfl
  · exact formed

end FailureTopics

namespace Envelope

variable {e : Envelope} {group topic : String}

theorem origin?_eq_none_iff :
    e.origin? = none ↔ e.originTopic = none ∨ e.originGroup = none := by
  unfold origin?
  cases e.originGroup <;> cases e.originTopic <;> simp

theorem origin?_retried :
    (e.retried group topic).origin? =
      some (e.originGroup.getD group, e.originTopic.getD topic) := rfl

theorem retryCount_retried : (e.retried group topic).retryCount = e.retryCount + 1 := rfl

theorem toNat_succ_retryCount (remaining : e.retryCount < maxFailures) :
    (e.retryCount + 1).toNat = e.retryCount.toNat + 1 := by
  have small : e.retryCount.toNat < 3 := remaining
  rw [UInt32.toNat_add]
  exact Nat.mod_eq_of_lt (Nat.lt_trans (Nat.succ_lt_succ small) (by decide))

/-- One more failure than fewer than the greatest number is not more than that. -/
theorem succ_retryCount_bounds (remaining : e.retryCount < maxFailures) :
    1 ≤ e.retryCount + 1 ∧ e.retryCount + 1 ≤ maxFailures := by
  have small : e.retryCount.toNat < 3 := remaining
  rw [UInt32.le_iff_toNat_le, UInt32.le_iff_toNat_le, toNat_succ_retryCount remaining]
  exact ⟨Nat.succ_le_succ (Nat.zero_le _), small⟩

theorem retryCount_lt_succ (remaining : e.retryCount < maxFailures) :
    e.retryCount < e.retryCount + 1 := by
  rw [UInt32.lt_iff_toNat_lt, toNat_succ_retryCount remaining]
  exact Nat.lt_succ_self _

end Envelope

end EventPipeline
