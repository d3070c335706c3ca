import EventPipeline.Proofs.Registry.Reserved
import EventPipeline.Proofs.Worker.RetryRoute

/-! # Misrouted events

An event that fails as an event of the retry path itself is refused by the publisher. In a registry that
is free of the names of this path no event fails so, whatever its message says of its origin: a listener
has failed on it, so some listener is registered under the group and the topic that it was offered to
(`Worker.Dispatches.spares_of_failing`). What a dispatch does after a failure is therefore to hand one
record to the sink, for the retry topic or for the dead-letter topic.
-/

namespace EventPipeline

variable {ω κ : Type}

/-- Only an event without a plan is refused as misrouted. -/
theorem Publisher.plan?_eq_none_of_misrouted {p : Publisher ω} {e : Envelope} {group topic : String}
    {key : Option String} {world : ω} {group' topic' : String}
    (refuses : (p.escalate e group topic key world).1.1 = .error (.misrouted group' topic')) :
    p.failureTopics.plan? e group topic = none := by
  cases planned : p.failureTopics.plan? e group topic with
  | none => rfl
  | some plan =>
    obtain ⟨path, e'⟩ := plan
    obtain ⟨_, _, _, ⟨-, published⟩ | ⟨error, -, published⟩⟩ :=
      Worker.publishFailed_cases p (p.failureTopics.topicOf path) e' key world
    · simp [escalate, planned, published] at refuses
    · simp [escalate, planned, published] at refuses

/-- An escalation goes either to the retry topic or to the dead-letter topic. -/
theorem FailureTopics.topicOf_cases (app : String) (path : Escalation) :
    let f := FailureTopics.ofApp app
    f.topicOf path = f.retryTopic ∧ f.topicOf path ≠ f.deadTopic ∨
      f.topicOf path = f.deadTopic ∧ f.topicOf path ≠ f.retryTopic := by
  cases path with
  | retry => exact .inl ⟨rfl, retryTopic_ne_deadTopic app⟩
  | deadLetter => exact .inr ⟨rfl, (retryTopic_ne_deadTopic app).symm⟩

namespace Worker

variable {h : Host ω κ} {w : Worker ω} {c : κ} {d : Delivery} {moves : List (Move ω κ)}
  {s : WorkerState κ}

/-- An event on which a listener failed was not offered as an event of the retry path. -/
theorem Dispatches.spares_of_failing (run : Dispatches h w c d moves s)
    (free : w.registry.reservedCollision? w.failureTopics = none) {r : Routed}
    (failing : s.phase = .failing c d r) :
    r.group ≠ w.failureTopics.retryGroup ∧ w.failureTopics.isReservedTopic r.topic = false := by
  obtain ⟨l, listens⟩ := List.exists_mem_of_ne_nil _ (run.listenersFor_ne_nil failing)
  exact Registry.spares_of_mem_matching free listens

theorem Dispatches.planned_of_failing (run : Dispatches h w c d moves s)
    (free : w.registry.reservedCollision? w.failureTopics = none) {r : Routed}
    (failing : s.phase = .failing c d r) :
    w.failureTopics.plan? r.event r.group r.topic ≠ none := by
  obtain ⟨other, unreserved⟩ := run.spares_of_failing free failing
  rw [ne_eq, FailureTopics.plan?_eq_none_iff]
  rintro (reserved | retry)
  · rw [unreserved] at reserved
    cases reserved
  · exact other retry

/-- If the registry is free of the names of the retry path, no dispatch comes to an event that the
publisher refuses as misrouted, and if the sink takes every record, no event fails to be moved on. When a
handler has failed, the dispatch hands exactly one record to the sink, for exactly one of the retry topic
and the dead-letter topic, and the sink's answer alone decides whether the event was moved on. -/
theorem Dispatches.never_misrouted (run : Dispatches h w c d moves s)
    (free : w.registry.reservedCollision? (.ofApp w.publisher.app) = none) :
    (∀ r, s.phase = .failing c d r → ∀ world group topic,
      (w.publisher.escalate r.event r.group r.topic d.keyText? world).1.1 ≠
        .error (.misrouted group topic)) ∧
    ((∀ record world, (w.publisher.sink.produce record world).1 = .ok ()) →
      s.phase ≠ .settling c d .escalationFailed) ∧
    ∀ outcome, s.phase = .settling c d outcome → (∃ m ∈ moves, Fails m.happened) →
      ∃ last ∈ moves, ∃ record path answer log, published moves = [record] ∧
        w.publisher.sink.produce record last.found = (answer, last.left, log) ∧
        record.topic = w.failureTopics.topicOf path ∧
        (record.topic = w.failureTopics.retryTopic ∧ record.topic ≠ w.failureTopics.deadTopic ∨
          record.topic = w.failureTopics.deadTopic ∧ record.topic ≠ w.failureTopics.retryTopic) ∧
        (answer = .ok () ∧ outcome = .escalated path ∨
          ∃ error, answer = .error error ∧ outcome = .escalationFailed) := by
  have moved (outcome : Outcome) (settling : s.phase = .settling c d outcome)
      (failure : outcome.isFailure = true) :
      ∃ last ∈ moves, ∃ record path answer log, published moves = [record] ∧
        w.publisher.sink.produce record last.found = (answer, last.left, log) ∧
        record.topic = w.failureTopics.topicOf path ∧
        (answer = .ok () ∧ outcome = .escalated path ∨
          ∃ error, answer = .error error ∧ outcome = .escalationFailed) := by
    obtain ⟨earlier, last, r, rfl, first, -, failing, ⟨unplanned, -⟩ |
      ⟨path, e, answer, log, -, produces, single, ends⟩⟩ := run.failure_cases settling failure
    · exact absurd unplanned (first.planned_of_failing free failing)
    · exact ⟨last, List.mem_append_right _ (List.mem_singleton_self _), _, path, answer, log, single,
        produces, rfl, ends⟩
  refine ⟨?_, ?_, ?_⟩
  · intro r failing world group topic refuses
    exact run.planned_of_failing free failing (Publisher.plan?_eq_none_of_misrouted refuses)
  · intro takes settling
    obtain ⟨last, -, record, path, answer, log, -, produces, -, ⟨-, other⟩ | ⟨error, rfl, -⟩⟩ :=
      moved _ settling rfl
    · cases other
    · have taken := takes record last.found
      rw [produces] at taken
      cases taken
  · intro outcome settling fails
    have failure : s.phase.HasFailed := run.hasFailed_iff.mpr fails
    rw [settling] at failure
    obtain ⟨last, mem, record, path, answer, log, single, produces, topic, ends⟩ :=
      moved outcome settling failure
    refine ⟨last, mem, record, path, answer, log, single, produces, topic, ?_, ends⟩
    rw [topic]
    exact FailureTopics.topicOf_cases w.publisher.app path

/-- The failed event of the sample goes to the retry topic and nowhere else. -/
theorem sample_never_misrouted :
    ∃ (moves : List (Move (Memory.World Unit) Memory.Consumer)) (s : WorkerState Memory.Consumer)
      (record : Outgoing),
      Sample.worker.Dispatches Memory.World.host Sample.consumer Sample.message moves s ∧
      Sample.registry.reservedCollision? (.ofApp "shop") = none ∧ (∃ m ∈ moves, Fails m.happened) ∧
      s.phase = .settling Sample.consumer Sample.message (.escalated (.retry 1)) ∧
      published moves = [record] ∧ record.topic = "shop_failure_topic" := by
  obtain ⟨moves, s, run, settling⟩ := Sample.dispatches
  have free : Sample.registry.reservedCollision? (.ofApp "shop") = none := rfl
  have fails : ∃ m ∈ moves, Fails m.happened := by
    rw [← run.hasFailed_iff, settling]
    rfl
  obtain ⟨-, -, moved⟩ := run.never_misrouted free
  obtain ⟨_, -, record, path, _, _, single, -, topic, -, ⟨-, ends⟩ | ⟨_, -, other⟩⟩ :=
    moved _ settling fails
  · cases ends
    exact ⟨moves, s, record, run, free, fails, settling, single, topic⟩
  · cases other

end Worker

end EventPipeline
