import EventPipeline.Proofs.Escalation
import EventPipeline.Proofs.Memory.Worker
import EventPipeline.Proofs.Worker.Republish

/-! # Escalations in vain

An escalation fails if the event is addressed to the retry path, and then the sink is not asked, or if the
sink refuses the one record that it is asked to take. Either way nothing is published. But the failure is
written into the event before the sink is asked, so an event that is refused on the way to the retry topic
comes out with one more failure and with an origin, as if it had been published; an event that is refused
as misrouted, or on the way to the dead-letter topic, comes out as it was. What is left of the budget of an
event after a number of attempts in vain is said by `Publisher.InVain.leaves_budget`.
-/

namespace EventPipeline

open Memory

variable {ω : Type}

namespace Publisher

variable {p : Publisher ω} {e e' : Envelope} {group topic : String} {key : Option String}
  {world world' : ω} {log : List LogEntry}

/-- All that an escalation can do: it asks nothing of the sink, or it hands over the one record that is
planned. -/
theorem escalate_cases (p : Publisher ω) (e : Envelope) (group topic : String) (key : Option String)
    (world : ω) :
    (p.failureTopics.plan? e group topic = none ∧
      p.escalate e group topic key world = ((.error (.misrouted group topic), e), world, [])) ∨
    ∃ path e' world' log more, p.failureTopics.plan? e group topic = some (path, e') ∧
      ((p.sink.produce (record (p.failureTopics.topicOf path) e' key) world = (.ok (), world', log) ∧
          p.escalate e group topic key world = ((.ok path, e'), world', more)) ∨
        ∃ refusal,
          p.sink.produce (record (p.failureTopics.topicOf path) e' key) world =
            (.error refusal, world', log) ∧
          p.escalate e group topic key world =
            ((.error (.publish (p.failureTopics.topicOf path) (.broker refusal)), e'), world', more)) := by
  cases planned : p.failureTopics.plan? e group topic with
  | none => exact .inl ⟨rfl, by simp only [escalate, planned, Act.pure_apply]⟩
  | some plan =>
    obtain ⟨path, e'⟩ := plan
    obtain ⟨after, log, more, ⟨produced, published⟩ | ⟨refusal, produced, published⟩⟩ :=
      Worker.publishFailed_cases p (p.failureTopics.topicOf path) e' key world
    · exact .inr ⟨path, e', after, log, _, rfl, .inl ⟨produced, by
        simp only [escalate, planned, Act.bind_apply, published, Act.log_apply, Act.pure_apply]
        rfl⟩⟩
    · exact .inr ⟨path, e', after, log, _, rfl, .inr ⟨refusal, produced, by
        simp only [escalate, planned, Act.bind_apply, published, Act.pure_apply]
        rfl⟩⟩

/-- An escalation that succeeds has done what was planned. -/
theorem planned_of_escalated {path : Escalation}
    (escalated : p.escalate e group topic key world = ((.ok path, e'), world', log)) :
    p.failureTopics.plan? e group topic = some (path, e') := by
  obtain ⟨-, made⟩ | ⟨_, _, _, _, _, planned, ⟨-, made⟩ | ⟨_, -, made⟩⟩ :=
    p.escalate_cases e group topic key world
  · rw [escalated] at made
    cases made
  · rw [escalated] at made
    cases made
    exact planned
  · rw [escalated] at made
    cases made

/-- An escalation that fails had no plan and did nothing, or the sink refused the record that was planned.
The event comes out as the plan would have it. -/
theorem failed_cases {error : EscalationError}
    (failed : p.escalate e group topic key world = ((.error error, e'), world', log)) :
    (p.failureTopics.plan? e group topic = none ∧ error = .misrouted group topic ∧ e' = e ∧
      world' = world) ∨
    ∃ path refusal log', p.failureTopics.plan? e group topic = some (path, e') ∧
      error = .publish (p.failureTopics.topicOf path) (.broker refusal) ∧
      p.sink.produce (record (p.failureTopics.topicOf path) e' key) world =
        (.error refusal, world', log') := by
  obtain ⟨unplanned, made⟩ | ⟨path, _, _, log', _, planned, ⟨-, made⟩ | ⟨refusal, produced, made⟩⟩ :=
    p.escalate_cases e group topic key world
  · rw [failed] at made
    cases made
    exact .inl ⟨unplanned, rfl, rfl, rfl⟩
  · rw [failed] at made
    cases made
  · rw [failed] at made
    cases made
    exact .inr ⟨path, refusal, log', planned, rfl, produced⟩

/-- Whatever a sink leaves as it was when it refuses a record, a failed escalation leaves as it was. -/
theorem shown_of_failed {error : EscalationError} {α : Type} {shows : ω → α}
    (refuses : ∀ record world refusal world' log,
      p.sink.produce record world = (.error refusal, world', log) → shows world' = shows world)
    (failed : p.escalate e group topic key world = ((.error error, e'), world', log)) :
    shows world' = shows world := by
  obtain ⟨-, -, -, rfl⟩ | ⟨_, refusal, log', -, -, produced⟩ := failed_cases failed
  · rfl
  · exact refuses _ _ _ _ _ produced

/-- A failed escalation leaves the event alone exactly if it had no plan for it or its failures were
spent already. -/
theorem event_eq_iff_of_failed {error : EscalationError}
    (failed : p.escalate e group topic key world = ((.error error, e'), world', log)) :
    e' = e ↔ error = .misrouted group topic ∨ maxFailures ≤ e.retryCount := by
  obtain ⟨-, misrouted, same, -⟩ | ⟨path, refusal, log', planned, rfl, -⟩ := failed_cases failed
  · exact iff_of_true same (.inl misrouted)
  · rcases FailureTopics.plan?_cases planned with ⟨-, remaining, rfl⟩ | ⟨-, spent, rfl⟩
    · -- the event has one more failure than before
      refine iff_of_false ?_ ?_
      · intro same
        have fewer := Envelope.retryCount_lt_succ remaining
        rw [← @Envelope.retryCount_retried e group topic, same] at fewer
        exact UInt32.lt_irrefl _ fewer
      · rintro (misrouted | spent)
        · cases misrouted
        · exact UInt32.not_le.mpr remaining spent
    · exact iff_of_true rfl (.inr spent)

/-- An event after it was escalated a number of times, each time in vain and as the time before left it.
Anything may happen to the world in between. -/
inductive InVain (p : Publisher ω) (group topic : String) (key : Option String) (e : Envelope) :
    Nat → Envelope → Prop where
  | start : InVain p group topic key e 0 e
  | again {n : Nat} {e' e'' : Envelope} {world world' : ω} {error : EscalationError}
    {log : List LogEntry} (earlier : InVain p group topic key e n e')
    (failed : p.escalate e' group topic key world = ((.error error, e''), world', log)) :
    InVain p group topic key e (n + 1) e''

namespace InVain

variable {n : Nat}

/-- Each attempt in vain takes one from the budget, until nothing is left of it. -/
theorem retryCount (vain : p.InVain group topic key e n e')
    (business : ¬ (p.failureTopics.isReservedTopic topic = true ∨ group = p.failureTopics.retryGroup)) :
    e'.retryCount.toNat = max e.retryCount.toNat (min 3 (e.retryCount.toNat + n)) := by
  induction vain with
  | start => omega
  | again _ failed ih =>
    obtain ⟨unplanned, -⟩ | ⟨path, refusal, log', planned, -⟩ := failed_cases failed
    · exact absurd (FailureTopics.plan?_eq_none_iff.mp unplanned) business
    · rcases FailureTopics.plan?_cases planned with ⟨-, remaining, rfl⟩ | ⟨-, spent, rfl⟩
      · have fewer : _ < 3 := UInt32.lt_iff_toNat_lt.mp remaining
        rw [Envelope.retryCount_retried, Envelope.toNat_succ_retryCount remaining]
        omega
      · have three : 3 ≤ _ := UInt32.le_iff_toNat_le.mp spent
        omega

/-- What is left after attempts in vain. An attempt that fails once more leaves what can be seen of the
world as a refusal of the sink leaves it. It also leaves the event alone if the event is misrouted or has
no budget left, and otherwise takes one from its budget. The first attempt that succeeds goes to the retry
topic only if the budget has outlasted the attempts, and the published event counts all of them. -/
theorem leaves_budget (vain : p.InVain group topic key e n e') :
    (∀ error world e'' world' log,
      p.escalate e' group topic key world = ((.error error, e''), world', log) →
      (∀ (α : Type) (shows : ω → α), (∀ record world refusal world' log,
          p.sink.produce record world = (.error refusal, world', log) → shows world' = shows world) →
        shows world' = shows world) ∧
      (e'' = e' ↔ error = .misrouted group topic ∨ maxFailures ≤ e'.retryCount) ∧
      (e'' = e' ∨ e'' = e'.retried group topic)) ∧
    ∀ path world e'' world' log,
      p.escalate e' group topic key world = ((.ok path, e''), world', log) →
      (e.retryCount.toNat + n < 3 ∧ path = .retry e''.retryCount ∧
          e''.retryCount.toNat = e.retryCount.toNat + n + 1) ∨
        (3 ≤ e.retryCount.toNat + n ∧ path = .deadLetter e''.retryCount ∧
          e''.retryCount.toNat = max e.retryCount.toNat 3) := by
  constructor
  · intro error world e'' world' log failed
    refine ⟨fun α shows refuses => shown_of_failed refuses failed, event_eq_iff_of_failed failed, ?_⟩
    obtain ⟨-, -, same, -⟩ | ⟨_, _, _, planned, -⟩ := failed_cases failed
    · exact .inl same
    · rcases FailureTopics.plan?_cases planned with ⟨-, -, retried⟩ | ⟨-, -, same⟩
      · exact .inr retried
      · exact .inl same
  · intro path world e'' world' log escalated
    have planned := planned_of_escalated escalated
    have count := vain.retryCount fun reserved => by
      rw [FailureTopics.plan?_eq_none_iff.mpr reserved] at planned
      cases planned
    rcases FailureTopics.plan?_cases planned with ⟨rfl, remaining, rfl⟩ | ⟨rfl, spent, rfl⟩
    · have fewer : _ < 3 := UInt32.lt_iff_toNat_lt.mp remaining
      have succ := Envelope.toNat_succ_retryCount remaining
      rw [Envelope.retryCount_retried]
      exact .inl ⟨by omega, rfl, by omega⟩
    · have three : 3 ≤ _ := UInt32.le_iff_toNat_le.mp spent
      exact .inr ⟨by omega, rfl, by omega⟩

end InVain

end Publisher

namespace Sample

/-- The sample's world with a retry topic that refuses records. -/
def deafWorld : World Unit := { world with broker := world.broker.refuse "shop_failure_topic" }

/-- What a broker in memory refuses leaves the world as it was. -/
theorem world_eq_of_refused (record : Outgoing) (world : World Unit) (refusal : BrokerError)
    (world' : World Unit) (log : List LogEntry)
    (produced : publisher.sink.produce record world = (.error refusal, world', log)) :
    world' = world := by
  obtain ⟨-, -, same⟩ | ⟨-, accepted, -⟩ := World.produce_cases produced
  · exact same
  · cases accepted

end Sample

namespace Publisher

/-- After one attempt in vain the next one is refused as well where the retry topic is deaf, which
nothing but the event shows; where it is not, the event is published with a count of two. -/
theorem sample_budget_in_vain :
    let e := Envelope.blank.retried "billing" "orders"
    Sample.publisher.InVain "billing" "orders" none .blank 1 e ∧
    (∃ error e' world' log,
      Sample.publisher.escalate e "billing" "orders" none Sample.deafWorld =
        ((.error error, e'), world', log) ∧ world' = Sample.deafWorld ∧ e' ≠ e) ∧
    ∃ path e' world' log,
      Sample.publisher.escalate e "billing" "orders" none Sample.world = ((.ok path, e'), world', log) ∧
      path = .retry e'.retryCount ∧ e'.retryCount.toNat = 2 := by
  have vain : Sample.publisher.InVain "billing" "orders" none .blank 1
      (Envelope.blank.retried "billing" "orders") :=
    @Publisher.InVain.again _ _ _ _ _ _ _ _ _ Sample.deafWorld _ _ _ .start rfl
  obtain ⟨fails, succeeds⟩ := vain.leaves_budget
  refine ⟨vain, ?_, ?_⟩
  · obtain ⟨shown, event, -⟩ := fails _ Sample.deafWorld _ _ _ rfl
    refine ⟨_, _, _, _, rfl, shown _ id Sample.world_eq_of_refused, ?_⟩
    rw [ne_eq, event]
    rintro (misrouted | spent)
    · cases misrouted
    · exact absurd spent (by decide)
  · obtain ⟨-, path, count⟩ | ⟨spent, -⟩ := succeeds _ Sample.world _ _ _ rfl
    · exact ⟨_, _, _, _, rfl, path, count⟩
    · exact absurd spent (by decide)

/-- A retry topic that refuses an event once has the event come out with one more failure; when it has
refused it three times, the event is given up without having been published for a single retry. -/
theorem sample_failure_spends_budget :
    let attempt := fun e => Sample.publisher.escalate e "billing" "orders" none Sample.deafWorld
    let refused : EscalationError :=
      .publish "shop_failure_topic" (.broker (.enqueue "shop_failure_topic" "topic unavailable"))
    let e₁ := (attempt .blank).1.2
    let e₂ := (attempt e₁).1.2
    let e₃ := (attempt e₂).1.2
    (attempt .blank).1.1 = .error refused ∧ e₁ ≠ .blank ∧ e₁.retryCount = 1 ∧
      (attempt e₁).1.1 = .error refused ∧ (attempt e₂).1.1 = .error refused ∧
      (attempt e₃).1.1 = .ok (.deadLetter 3) ∧
      (attempt e₃).2.1.broker.records "shop_failure_topic" = [] := by
  refine ⟨rfl, ?_, rfl, rfl, rfl, rfl, rfl⟩
  intro same
  cases congrArg Envelope.retries same

end Publisher

end EventPipeline
