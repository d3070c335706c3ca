import EventPipeline.Memory.World
import EventPipeline.Proofs.Escalation
import EventPipeline.Proofs.Worker.Dispatch

/-! # Republished events

When a dispatch moves an event on, the one record that it hands to the sink holds the event that was
received: unchanged on the dead-letter topic, and on the retry topic with one more failure and a
complete origin, so that every worker that reads it there finds out whom it is meant for.
-/

namespace EventPipeline

variable {ω κ ω' κ' : Type}

theorem Delivery.content?_eq_some_iff {d : Delivery} {bs : Octets} :
    d.content? = some bs ↔ d.payload = some bs ∧ bs.all isBlankOctet = false := by
  rw [content?, Option.filter_eq_some_iff, Bool.not_eq_true']

theorem Delivery.content?_eq_none_iff {d : Delivery} :
    d.content? = none ↔ ∀ bs, d.payload = some bs → bs.all isBlankOctet = true := by
  simp only [content?, Option.filter_eq_none_iff, Bool.not_eq_true', Bool.not_eq_false]

theorem Delivery.payload_of_content? {d : Delivery} {bs : Octets} (present : d.content? = some bs) :
    d.payload = some bs := (content?_eq_some_iff.mp present).1

/-- A payload that holds an envelope is not blank. -/
theorem Delivery.content?_of_read {d : Delivery} {bs : Octets} {e : Envelope}
    (payload : d.payload = some bs) (reads : Envelope.read bs = .ok e) : d.content? = some bs :=
  content?_eq_some_iff.mpr
    ⟨payload, List.all_eq_false.mpr ⟨_, Envelope.brace_mem_of_read reads, by decide⟩⟩

namespace Worker

/-- The listeners of an event are found when its message is looked at. -/
theorem step_received {w : Worker ω} {d : Delivery} {r : Routed} (routes : w.Routes d r)
    (h : Host ω κ) (c : κ) (stats : Stats) (streak : Nat) (world : ω) :
    w.step h ⟨.received c d, stats, streak⟩ world =
      (⟨.offering c d r 0, stats, streak⟩, world, []) := by
  obtain ⟨bs, present, reads, route⟩ := routes
  simp only [step, examine, present, reads, route]

theorem route?_of_origin? {e : Envelope} {group topic : String}
    (origin : e.origin? = some (group, topic)) (w : Worker ω) (d : Delivery) :
    w.route? d e = some (group, topic) := by
  rw [route?, origin]

/-- Of all records handed to the sink in these moves there is one, handed over in the last of them
under the key of the message; it holds the given event, and the sink answered as given. -/
def Republishes (w : Worker ω) (d : Delivery) (moves : List (Move ω κ)) (topic : String)
    (e : Envelope) (answer : Except BrokerError Unit) : Prop :=
  ∃ earlier last bs log, moves = earlier ++ [last] ∧
    published moves = [⟨topic, d.keyText?, bs⟩] ∧ Envelope.read bs = .ok e ∧
    w.publisher.sink.produce ⟨topic, d.keyText?, bs⟩ last.found = (answer, last.left, log)

variable {h : Host ω κ} {w : Worker ω} {c : κ} {d : Delivery} {moves : List (Move ω κ)}
  {s : WorkerState κ}

theorem Routes.event_eq {bs : Octets} {e : Envelope} {r : Routed} (routes : w.Routes d r)
    (payload : d.payload = some bs) (reads : Envelope.read bs = .ok e) : r.event = e := by
  obtain ⟨bs', present, reads', -⟩ := routes
  rw [Delivery.content?_of_read payload reads] at present
  cases present
  rw [reads] at reads'
  exact (Except.ok.inj reads').symm

theorem Orphans.event_eq {bs : Octets} {e e' : Envelope} (orphan : w.Orphans d e')
    (payload : d.payload = some bs) (reads : Envelope.read bs = .ok e) : e' = e := by
  obtain ⟨bs', present, reads', -⟩ := orphan
  rw [Delivery.content?_of_read payload reads] at present
  cases present
  rw [reads] at reads'
  exact (Except.ok.inj reads').symm

/-- An event that was moved on is held by the record that was published for it. -/
theorem Dispatches.republishes_of_escalated (run : Dispatches h w c d moves s) {c' : κ}
    {d' : Delivery} {path : Escalation} (settling : s.phase = .settling c' d' (.escalated path))
    {bs : Octets} {e : Envelope} (payload : d.payload = some bs)
    (reads : Envelope.read bs = .ok e) :
    ∃ group topic e', w.route? d e = some (group, topic) ∧
      w.failureTopics.plan? e group topic = some (path, e') ∧
      Republishes w d moves (w.failureTopics.topicOf path) e' (.ok ()) := by
  obtain ⟨earlier, last, r, e', log, split, -, routes, -, planned, answer, single⟩ :=
    run.escalated settling
  have same := routes.event_eq payload reads
  obtain ⟨_, _, _, route⟩ := routes
  rw [same] at planned route
  have formed := FailureTopics.wellFormed_of_plan? (Envelope.wellFormed_of_read reads) planned
  exact ⟨r.group, r.topic, e', route, planned, earlier, last, e'.payload, log, split, single,
    Envelope.read_payload formed, answer⟩

/-- An event of unknown origin is held by the record that was published for it. -/
theorem Dispatches.republishes_of_orphaned (run : Dispatches h w c d moves s) {c' : κ}
    {d' : Delivery} (settling : s.phase = .settling c' d' .orphaned) {bs : Octets} {e : Envelope}
    (payload : d.payload = some bs) (reads : Envelope.read bs = .ok e) :
    ∃ answer, Republishes w d moves w.failureTopics.deadTopic e answer := by
  obtain ⟨earlier, last, e', answer, log, split, orphan, produced, single⟩ := run.orphaned settling
  rw [orphan.event_eq payload reads] at single produced
  exact ⟨answer, earlier, last, e.payload, log, split, single,
    Envelope.read_payload_of_read reads, produced⟩

/-- An event that a dispatch republishes is the event that was received. After a failure that leaves
attempts it counts one more failure and has a complete origin, that which it had as far as it had
one, so that every worker finds its listeners; otherwise it is unchanged. The record's key is the
message's key if that is UTF-8. -/
theorem Dispatches.republishes_event (run : Dispatches h w c d moves s) {c' : κ} {d' : Delivery}
    {outcome : Outcome} (settling : s.phase = .settling c' d' outcome) {bs : Octets} {e : Envelope}
    (payload : d.payload = some bs) (reads : Envelope.read bs = .ok e) :
    (∀ n, outcome = .escalated (.retry n) → n = e.retryCount + 1 ∧ 1 ≤ n ∧ n ≤ maxFailures ∧
      ∃ group topic, (∀ g, e.originGroup = some g → group = g) ∧
        (∀ t, e.originTopic = some t → topic = t) ∧
        let e' := { e with
          retries := some n, originTopic := some topic, originGroup := some group }
        Republishes w d moves w.failureTopics.retryTopic e' (.ok ()) ∧
        ∀ (h' : Host ω' κ') (w' : Worker ω') (c' : κ') (d' : Delivery) (bs' : Octets) stats streak
          world, d'.payload = some bs' → Envelope.read bs' = .ok e' →
          (w'.step h' ⟨.received c' d', stats, streak⟩ world).1.phase =
            .offering c' d' ⟨e', group, topic⟩ 0) ∧
    (∀ n, outcome = .escalated (.deadLetter n) →
      Republishes w d moves w.failureTopics.deadTopic e (.ok ())) ∧
    (outcome = .orphaned → ∃ answer, Republishes w d moves w.failureTopics.deadTopic e answer) ∧
    ∀ text, d.keyText? = some text ↔ ∃ key, d.key = some key ∧ octetsOf text = key := by
  refine ⟨?_, ?_, ?_, ?_⟩
  · rintro n rfl
    obtain ⟨group, topic, e', -, planned, republishes⟩ :=
      run.republishes_of_escalated settling payload reads
    rcases FailureTopics.plan?_cases planned with ⟨path, remaining, rfl⟩ | ⟨path, -⟩
    · cases path
      obtain ⟨some, bound⟩ := Envelope.succ_retryCount_bounds remaining
      refine ⟨rfl, some, bound, e.originGroup.getD group, e.originTopic.getD topic, ?_, ?_,
        republishes, ?_⟩
      · intro g recorded
        rw [recorded, Option.getD_some]
      · intro t recorded
        rw [recorded, Option.getD_some]
      · intro h' w' c' d' bs' stats streak world payload' reads'
        have routes : w'.Routes d' ⟨e.retried group topic, e.originGroup.getD group,
            e.originTopic.getD topic⟩ :=
          ⟨bs', Delivery.content?_of_read payload' reads', reads',
            route?_of_origin? Envelope.origin?_retried w' d'⟩
        exact congrArg (fun stepped => stepped.1.phase) (step_received routes h' c' stats streak world)
    · cases path
  · rintro n rfl
    obtain ⟨group, topic, e', -, planned, republishes⟩ :=
      run.republishes_of_escalated settling payload reads
    rcases FailureTopics.plan?_cases planned with ⟨path, -⟩ | ⟨path, -, rfl⟩
    · cases path
    · exact republishes
  · rintro rfl
    exact run.republishes_of_orphaned settling payload reads
  · intro text
    rw [Delivery.keyText?, Option.bind_eq_some_iff]
    exact exists_congr fun key => and_congr_right fun _ => textOf?_eq_some_iff

end Worker

/-! ### A worker with a broken handler -/

namespace Sample

open Memory

/-- A handler that fails on every event. -/
def brokenHandler : Handler (World Unit) :=
  ⟨"broken", fun _ world => (.error (.failed "broken"), world, [])⟩

/-- One listener, which fails. -/
def registry : Registry (Handler (World Unit)) :=
  ⟨none, [⟨"billing", ⟨["orders"], none, brokenHandler⟩⟩]⟩

def publisher : Publisher (World Unit) := ⟨"shop", World.sink⟩

def worker : Worker (World Unit) := .business "billing" [] registry publisher .standard .standard

/-- A message with an event that says nothing. -/
def message : Delivery := ⟨"orders", 0, 0, none, some (octetsOf "\x7b\x7d")⟩

/-- A broker that holds the message. -/
def world : World Unit :=
  ⟨⟨[("orders", ⟨none, message.payload⟩)], [], [], [], [], []⟩, false, 0, ()⟩

/-- The worker's consumer after it has fetched the message. -/
def consumer : Consumer := ⟨"billing", ["orders"], [("orders", 1)]⟩

/-- The handler fails and the event goes to the retry topic. -/
theorem dispatches : ∃ moves s, worker.Dispatches World.host consumer message moves s ∧
    s.phase = .settling consumer message (.escalated (.retry 1)) := by
  have received : worker.Dispatches World.host consumer message [] _ := .received .none 0
  obtain ⟨_, offered⟩ := received.next trivial world
  obtain ⟨_, failed⟩ := offered.next trivial world
  obtain ⟨_, settled⟩ := failed.next trivial world
  exact ⟨_, _, settled, rfl⟩

end Sample

namespace Worker

open Memory in
theorem sample_republishes_event : ∃ (moves : List (Move (World Unit) Consumer)) (group topic : String),
    Republishes Sample.worker Sample.message moves "shop_failure_topic"
      { Envelope.blank with
        retries := some 1, originTopic := some topic, originGroup := some group } (.ok ()) := by
  obtain ⟨moves, s, run, settling⟩ := Sample.dispatches
  have reads : Envelope.read (octetsOf "\x7b\x7d") = .ok .blank := rfl
  obtain ⟨retry, -⟩ := @Dispatches.republishes_event _ _ Unit Unit _ _ _ _ _ _ run _ _ _ settling _
    _ rfl reads
  obtain ⟨-, -, -, group, topic, -, -, republishes, -⟩ := retry 1 rfl
  exact ⟨moves, group, topic, republishes⟩

end Worker

end EventPipeline
