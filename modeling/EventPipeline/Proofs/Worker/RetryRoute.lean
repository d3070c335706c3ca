import EventPipeline.Proofs.Worker.Republish

/-! # Where a retry is offered

A failed event goes to the retry topic with a complete origin. Each half of it is the one that the
event had already, or else the group or topic whose listeners the failed dispatch asked. The retry
worker therefore asks the same listeners again exactly when no half that was there before names
another group or topic.
-/

namespace EventPipeline

variable {ω κ κ' : Type}

/-- What the event says of its origin is what the dispatch made of it. -/
def Routed.AgreesWithOrigin (r : Routed) : Prop :=
  (∀ group, r.event.originGroup = some group → group = r.group) ∧
    ∀ topic, r.event.originTopic = some topic → topic = r.topic

/-- The event as it is published for its next attempt, with the listeners that it is meant for
then. -/
def Routed.retried (r : Routed) : Routed :=
  ⟨r.event.retried r.group r.topic, r.event.originGroup.getD r.group,
    r.event.originTopic.getD r.topic⟩

theorem Option.getD_eq_iff {α : Type} {o : Option α} {a : α} :
    o.getD a = a ↔ ∀ b, o = some b → b = a := by
  cases o with
  | none => simp
  | some b => simp

theorem Routed.retried_eq_iff (r : Routed) :
    r.retried.group = r.group ∧ r.retried.topic = r.topic ↔ r.AgreesWithOrigin :=
  and_congr Option.getD_eq_iff Option.getD_eq_iff

namespace Worker

variable {h : Host ω κ} {w : Worker ω} {c : κ} {d : Delivery} {moves : List (Move ω κ)}
  {s : WorkerState κ}

/-- An event with a complete origin, or with none, is meant for the listeners that its origin
names, or for those of the worker that fetched it. -/
theorem Routes.agreesWithOrigin {r : Routed} (routes : w.Routes d r)
    (whole : r.event.originGroup.isSome = r.event.originTopic.isSome) : r.AgreesWithOrigin := by
  obtain ⟨_, _, _, route⟩ := routes
  unfold route? Envelope.origin? at route
  cases recordedGroup : r.event.originGroup with
  | none =>
    rw [recordedGroup, Option.isSome_none] at whole
    have recordedTopic := Option.isSome_eq_false_iff.mp whole.symm
    rw [Option.isNone_iff_eq_none] at recordedTopic
    constructor
    · intro group recorded
      rw [recordedGroup] at recorded
      cases recorded
    · intro topic recorded
      rw [recordedTopic] at recorded
      cases recorded
  | some group =>
    rw [recordedGroup, Option.isSome_some] at whole
    obtain ⟨topic, recordedTopic⟩ := Option.isSome_iff_exists.mp whole.symm
    simp only [recordedGroup, recordedTopic, Option.some.injEq, Prod.mk.injEq] at route
    constructor
    · intro group' recorded
      rw [recordedGroup] at recorded
      cases recorded
      exact route.1
    · intro topic' recorded
      rw [recordedTopic] at recorded
      cases recorded
      exact route.2

/-- The retry worker offers only events whose origin is complete. -/
theorem Routes.whole_of_isRetry {r : Routed} (routes : w.Routes d r) (retry : w.isRetry = true) :
    r.event.originGroup.isSome = r.event.originTopic.isSome := by
  obtain ⟨_, _, _, route⟩ := routes
  unfold route? Envelope.origin? at route
  cases group : r.event.originGroup <;> cases topic : r.event.originTopic <;>
    simp [group, topic, retry] at route ⊢

section Step

variable {s s' : WorkerState κ} {world world' : ω} {happened : List Occurrence}

/-- A listener failed on the event that has to be moved on. -/
theorem Does.listenersFor_ne_nil (does : Does h w s world s' world' happened)
    (unfinished : s.phase.IsOpen) {r : Routed} (failing : s'.phase = .failing c d r) :
    w.listenersFor r ≠ [] := by
  cases does <;> first
    | exact unfinished.elim
    | cases failing
  case failed.refl next answer =>
    intro none
    rw [none] at next
    cases next

/-- A step that ends a dispatch without a failure, when the event has listeners, is the one that
finds that all of them have had it. -/
theorem Does.outcome_cases (does : Does h w s world s' world' happened)
    (unfinished : s.phase.IsOpen) (held : s.phase.held? = some (c, d)) {outcome : Outcome}
    (settling : s'.phase = .settling c d outcome) :
    (∃ n, outcome = .handled n) ∨ outcome.isFailure = true ∨ (∀ r, ¬ w.Routes d r) ∨
      (∃ r, s.phase.routed? = some r ∧ w.listenersFor r = []) ∨
      ∃ e, s.phase = .orphaned c d e := by
  cases does <;> first
    | exact unfinished.elim
    | cases settling
  case empty.refl absent =>
    right; right; left
    rintro r ⟨_, present, -⟩
    rw [absent] at present
    cases present
  case malformed.refl unread present =>
    right; right; left
    rintro r ⟨_, present', reads, -⟩
    rw [present] at present'
    cases present'
    rw [unread] at reads
    cases reads
  case unrouted.refl r nobody =>
    exact .inr (.inr (.inr (.inl ⟨r, rfl, by simpa using nobody⟩)))
  case handled.refl ran some done => exact .inl ⟨ran, rfl⟩
  case misrouted.refl => exact .inr (.inl rfl)
  case escalated.refl => exact .inr (.inl rfl)
  case notEscalated.refl => exact .inr (.inl rfl)
  case buried.refl e _ _ _ => exact .inr (.inr (.inr (.inr ⟨e, rfl⟩)))
  case notBuried.refl e _ _ _ _ => exact .inr (.inr (.inr (.inr ⟨e, rfl⟩)))

end Step

theorem Dispatches.listenersFor_ne_nil (run : Dispatches h w c d moves s) {r : Routed}
    (failing : s.phase = .failing c d r) : w.listenersFor r ≠ [] := by
  cases run with
  | received => cases failing
  | step _ unfinished made => exact (does_step made).listenersFor_ne_nil unfinished failing

/-- An event that has listeners is handled by them, or one of them fails. -/
theorem Dispatches.outcome_of_listeners (run : Dispatches h w c d moves s) {outcome : Outcome}
    (settling : s.phase = .settling c d outcome) {r : Routed} (routes : w.Routes d r)
    (listeners : w.listenersFor r ≠ []) :
    (∃ n, outcome = .handled n) ∨ outcome.isFailure = true := by
  cases run with
  | received => cases settling
  | step first unfinished made =>
    rcases (does_step made).outcome_cases unfinished first.held settling with
      handled | failure | nowhere | ⟨r', routed, nobody⟩ | ⟨e, orphaned⟩
    · exact .inl handled
    · exact .inr failure
    · exact absurd routes (nowhere r)
    · exact absurd (routes.unique (first.routes routed) ▸ nobody) listeners
    · exact absurd (first.orphan orphaned) routes.not_orphans

/-- On the retry topic a failed event is meant for the listeners that its origin names there. -/
theorem Dispatches.routes_retried (run : Dispatches h w c d moves s) {n : UInt32}
    (settling : s.phase = .settling c d (.escalated (.retry n))) :
    ∃ r bs, w.Routes d r ∧ w.listenersFor r ≠ [] ∧
      published moves = [⟨w.failureTopics.retryTopic, d.keyText?, bs⟩] ∧
      ∀ (w' : Worker ω) (d' : Delivery), d'.payload = some bs → w'.Routes d' r.retried := by
  obtain ⟨earlier, last, r, e', log, split, first, routes, failing, planned, answer, single⟩ :=
    run.escalated settling
  have formed := Envelope.wellFormed_of_read routes.choose_spec.2.1
  rcases FailureTopics.plan?_cases planned with ⟨-, -, rfl⟩ | ⟨path, -⟩
  · refine ⟨r, _, routes, first.listenersFor_ne_nil failing, single, ?_⟩
    intro w' d' payload
    have reads := Envelope.read_payload (FailureTopics.wellFormed_of_plan? formed planned)
    exact ⟨_, Delivery.content?_of_read payload reads, reads,
      route?_of_origin? Envelope.origin?_retried w' d'⟩
  · cases path

/-- A failed event that goes to the retry topic is meant there for the group and topic that the
failed dispatch made out exactly when no half of an origin that it had already names another one.
This holds of every event whose origin was complete or absent, and of all that the retry worker
fetches. The same listeners are then asked again: the event is handled or fails once more, and is
never left without listeners. -/
theorem Dispatches.retry_returns_iff (run : Dispatches h w c d moves s) {n : UInt32}
    (settling : s.phase = .settling c d (.escalated (.retry n))) :
    ∃ r bs, w.Routes d r ∧ published moves = [⟨w.failureTopics.retryTopic, d.keyText?, bs⟩] ∧
      (r.event.originGroup.isSome = r.event.originTopic.isSome → r.AgreesWithOrigin) ∧
      (w.isRetry = true → r.AgreesWithOrigin) ∧
      ∀ (brokers : List String) (settings : Settings) (timer : Timer) (d' : Delivery),
        d'.payload = some bs →
        ∃ r', (Worker.retry brokers w.registry w.publisher settings timer).Routes d' r' ∧
          (r'.group = r.group ∧ r'.topic = r.topic ↔ r.AgreesWithOrigin) ∧
          (r.AgreesWithOrigin →
            (Worker.retry brokers w.registry w.publisher settings timer).listenersFor r' =
              w.listenersFor r ∧
            ∀ (h' : Host ω κ') (c' : κ') (moves' : List (Move ω κ')) (s' : WorkerState κ')
              (outcome : Outcome),
              (Worker.retry brokers w.registry w.publisher settings timer).Dispatches h' c' d' moves'
                s' →
              s'.phase = .settling c' d' outcome →
              (∃ n, outcome = .handled n) ∨ outcome.isFailure = true) := by
  obtain ⟨r, bs, routes, listeners, single, returns⟩ := run.routes_retried settling
  refine ⟨r, bs, routes, single, routes.agreesWithOrigin,
    fun retry => routes.agreesWithOrigin (routes.whole_of_isRetry retry), ?_⟩
  intro brokers settings timer d' payload
  have routes' := returns (Worker.retry brokers w.registry w.publisher settings timer) d' payload
  refine ⟨r.retried, routes', r.retried_eq_iff, ?_⟩
  intro agrees
  obtain ⟨group, topic⟩ := r.retried_eq_iff.mpr agrees
  have same : (Worker.retry brokers w.registry w.publisher settings timer).listenersFor r.retried =
      w.listenersFor r := by
    rw [listenersFor, listenersFor, group, topic]
    rfl
  refine ⟨same, ?_⟩
  intro h' c' moves' s' outcome run' settling'
  exact run'.outcome_of_listeners settling' routes' (same ▸ listeners)

/-- The handler of the sample is asked again. -/
theorem sample_retry_returns : ∃ (bs : Octets) (r : Routed),
    (Worker.retry [] Sample.registry Sample.publisher .standard .standard).Routes
      ⟨"shop_failure_topic", 0, 0, none, some bs⟩ r ∧ r.group = "billing" ∧ r.topic = "orders" := by
  obtain ⟨moves, s, run, settling⟩ := Sample.dispatches
  obtain ⟨r, bs, routes, -, whole, -, returns⟩ :=
    @Dispatches.retry_returns_iff _ _ Unit _ _ _ _ _ _ run _ settling
  obtain ⟨r', routes', back, -⟩ :=
    returns [] .standard .standard ⟨"shop_failure_topic", 0, 0, none, some bs⟩ rfl
  have fresh : Sample.worker.Routes Sample.message ⟨.blank, "billing", "orders"⟩ :=
    ⟨_, rfl, rfl, rfl⟩
  cases routes.unique fresh
  exact ⟨bs, r', routes', back.mpr (whole rfl)⟩

end Worker

namespace Sample

open Memory

/-- A message whose event has half an origin, which names a topic that no listener takes. -/
def strayMessage : Delivery :=
  ⟨"orders", 0, 0, none, some (octetsOf "\x7b\"original_topic\":\"ghost\"\x7d")⟩

/-- The event of the stray message, with the listeners that it is offered to first. -/
def strayEvent : Routed := ⟨{ Envelope.blank with originTopic := some "ghost" }, "billing", "orders"⟩

theorem dispatches_stray : ∃ moves s, worker.Dispatches World.host consumer strayMessage moves s ∧
    s.phase = .settling consumer strayMessage (.escalated (.retry 1)) := by
  have received : worker.Dispatches World.host consumer strayMessage [] _ := .received .none 0
  obtain ⟨_, offered⟩ := received.next trivial world
  obtain ⟨_, failed⟩ := offered.next trivial world
  obtain ⟨_, settled⟩ := failed.next trivial world
  exact ⟨_, _, settled, rfl⟩

end Sample

namespace Worker

/-- An event with half an origin can be offered by a worker whose handler fails on it, and on the
retry topic be meant for a topic that nobody listens to. -/
theorem sample_retry_strays : ∃ (moves : List (Move (Memory.World Unit) Memory.Consumer))
    (s : WorkerState Memory.Consumer) (bs : Octets),
    Sample.worker.Dispatches Memory.World.host Sample.consumer Sample.strayMessage moves s ∧
    s.phase = .settling Sample.consumer Sample.strayMessage (.escalated (.retry 1)) ∧
    Sample.worker.Routes Sample.strayMessage Sample.strayEvent ∧
    Sample.worker.listenersFor Sample.strayEvent ≠ [] ∧
    published moves = [⟨"shop_failure_topic", none, bs⟩] ∧
    (Worker.retry [] Sample.registry Sample.publisher .standard .standard).Routes
      ⟨"shop_failure_topic", 0, 0, none, some bs⟩ Sample.strayEvent.retried ∧
    Sample.strayEvent.retried.topic = "ghost" ∧
    (Worker.retry [] Sample.registry Sample.publisher .standard .standard).listenersFor
      Sample.strayEvent.retried = [] := by
  obtain ⟨moves, s, run, settling⟩ := Sample.dispatches_stray
  obtain ⟨r, bs, routes, listeners, single, returns⟩ := run.routes_retried settling
  have first : Sample.worker.Routes Sample.strayMessage Sample.strayEvent := ⟨_, rfl, rfl, rfl⟩
  cases routes.unique first
  exact ⟨moves, s, bs, run, settling, first, listeners, single, returns _ _ rfl, rfl, rfl⟩

end Worker

end EventPipeline
