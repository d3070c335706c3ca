import EventPipeline.Proofs.Worker.Moves

/-! # What others log

In a step of a worker the host, a handler or the sink may log entries, which the worker passes on among
its own. `Worker.OthersLog` says of all that they log that it has a property. What is logged while an
event is moved on then has it too, unless it is one of the few entries that tell of publishing
(`entries_escalate`, `entries_bury`).
-/

namespace EventPipeline

variable {ω κ : Type}

/-- Whether an entry tells of publishing an event on the retry path. -/
def LogEntry.tellsOfPublishing : LogEntry → Bool
  | .handedOver .. | .retryScheduled .. | .retriesExhausted .. | .deadLettered ..
  | .escalationFailed _ | .deadLetterFailed _ => true
  | _ => false

theorem filterMap_logged {α : Type} {kind : Occurrence → Option α} {log : List LogEntry}
    (none : ∀ e ∈ log, kind (.logged e) = none) : (logged log).filterMap kind = [] := by
  rw [List.filterMap_eq_nil_iff]
  intro o mem
  obtain ⟨e, entry, rfl⟩ := List.mem_map.mp mem
  exact none e entry

theorem logged_append (first second : List LogEntry) :
    logged (first ++ second) = logged first ++ logged second := List.map_append

/-- What others than the worker itself log in its steps has this property. -/
structure Worker.OthersLog (h : Host ω κ) (w : Worker ω) (P : LogEntry → Prop) : Prop where
  connect : ∀ world, ∀ entry ∈ (h.connect w.subscription world).2.2, P entry
  poll : ∀ c world, ∀ entry ∈ (h.poll c w.settings.pollTimeout world).2.2, P entry
  commit : ∀ c d world, ∀ entry ∈ (h.commit c d world).2.2, P entry
  close : ∀ c world, ∀ entry ∈ (h.close c world).2.2, P entry
  handlers : ∀ a ∈ w.registry.accepted, ∀ e world,
    ∀ entry ∈ (a.listener.handler.handle e world).2.2, P entry
  sink : ∀ record world, ∀ entry ∈ (w.publisher.sink.produce record world).2.2, P entry

/-- If what the sink logs has a property, so has what is logged while an event is published. -/
theorem Publisher.entries_publishFailed {p : Publisher ω} {P : LogEntry → Prop}
    (sink : ∀ record world, ∀ entry ∈ (p.sink.produce record world).2.2, P entry)
    (publishing : ∀ entry, entry.tellsOfPublishing = true → P entry) (topic : String) (e : Envelope)
    (key : Option String) (world : ω) :
    ∀ entry ∈ (p.publishFailed topic e key world).2.2, P entry := by
  have produced := sink (Publisher.record topic e key) world
  rcases answers : p.sink.produce (Publisher.record topic e key) world with ⟨answer, after, log⟩
  rw [answers] at produced
  simp only [publishFailed, sendFilled, Act.bind_apply, answers]
  intro entry mem
  cases answer with
  | ok =>
    simp only [Act.bind_apply, Act.log_apply, Act.pure_apply, List.append_nil] at mem
    rcases List.mem_append.mp mem with handed | last
    · exact produced entry handed
    · rw [List.mem_singleton.mp last]
      exact publishing _ rfl
  | error error =>
    simp only [Act.pure_apply, List.append_nil] at mem
    exact produced entry mem

namespace Worker

variable {h : Host ω κ} {w : Worker ω} {P : LogEntry → Prop} {α : Type}
  {kind : Occurrence → Option α}

/-- Nothing of a kind that entries with the property are not of is logged while a failed event is moved
on. -/
theorem entries_escalate (others : w.OthersLog h P) (skipped : ∀ e, P e → kind (.logged e) = none)
    (publishing : ∀ e, e.tellsOfPublishing = true → P e)
    (unpublished : ∀ record, kind (.published record) = none) (s : WorkerState κ) (c : κ)
    (d : Delivery) (r : Routed) (world : ω) :
    (w.escalate s c d r world).2.2.filterMap kind = [] := by
  have told (e : LogEntry) (tells : e.tellsOfPublishing = true) : kind (.logged e) = none :=
    skipped e (publishing e tells)
  cases planned : w.publisher.failureTopics.plan? r.event r.group r.topic with
  | none =>
    have refused : kind (.logged (.escalationFailed (.misrouted r.group r.topic))) = none :=
      told _ rfl
    simp [escalate, failureTopics, Publisher.escalate, planned, logged, refused]
  | some plan =>
    obtain ⟨path, e⟩ := plan
    have quiet := Publisher.entries_publishFailed others.sink publishing
      (w.publisher.failureTopics.topicOf path) e d.keyText? world
    rcases published : w.publisher.publishFailed (w.publisher.failureTopics.topicOf path) e
      d.keyText? world with ⟨answer, after, log⟩
    rw [published] at quiet
    have passed : (logged log).filterMap kind = [] :=
      filterMap_logged fun e mem => skipped e (quiet e mem)
    cases answer with
    | ok =>
      simp only [escalate, failureTopics, planned, Publisher.escalate, Act.bind_apply, published,
        Act.log_apply, Act.pure_apply, logged_append, List.filterMap_append, passed]
      have scheduled : kind (.logged (Publisher.escalationEntry w.publisher.failureTopics r.topic
          r.group path)) = none := by
        cases path <;> exact told _ rfl
      simp [logged, unpublished, scheduled]
    | error error =>
      simp only [escalate, failureTopics, planned, Publisher.escalate, Act.bind_apply, published,
        Act.pure_apply, List.append_nil, List.filterMap_append, passed]
      simp [unpublished, told (.escalationFailed error) rfl]

/-- Nor while an event of unknown origin is moved to the dead-letter topic. -/
theorem entries_bury (others : w.OthersLog h P) (skipped : ∀ e, P e → kind (.logged e) = none)
    (publishing : ∀ e, e.tellsOfPublishing = true → P e)
    (unpublished : ∀ record, kind (.published record) = none) (s : WorkerState κ) (c : κ)
    (d : Delivery) (e : Envelope) (world : ω) :
    (w.bury s c d e world).2.2.filterMap kind = [] := by
  have told (e : LogEntry) (tells : e.tellsOfPublishing = true) : kind (.logged e) = none :=
    skipped e (publishing e tells)
  have quiet := Publisher.entries_publishFailed others.sink publishing
    w.publisher.failureTopics.deadTopic e d.keyText? world
  rcases published : w.publisher.publishFailed w.publisher.failureTopics.deadTopic e d.keyText?
    world with ⟨answer, after, log⟩
  rw [published] at quiet
  have passed : (logged log).filterMap kind = [] :=
    filterMap_logged fun e mem => skipped e (quiet e mem)
  cases answer with
  | ok =>
    simp only [bury, Publisher.deadLetter, Act.bind_apply, published, Act.log_apply,
      Act.pure_apply, logged_append, List.filterMap_append, List.filterMap_cons, passed, unpublished]
    simp [logged, told (.deadLettered e.retryCount w.publisher.failureTopics.deadTopic) rfl]
  | error error =>
    simp only [bury, Publisher.deadLetter, Act.bind_apply, published, Act.pure_apply,
      List.append_nil, List.filterMap_append, List.filterMap_cons, passed, unpublished]
    simp [told (.deadLetterFailed error) rfl]

/-- What was logged by somebody whose entries have the property is of no kind that they are not of. -/
theorem OthersLog.filterMap_logged {β : Type} {stepped : β × ω × List LogEntry} {b : β} {world : ω}
    {log : List LogEntry} (skipped : ∀ e, P e → kind (.logged e) = none)
    (quiet : ∀ entry ∈ stepped.2.2, P entry) (answer : stepped = (b, world, log)) :
    (logged log).filterMap kind = [] := by
  subst answer
  exact EventPipeline.filterMap_logged fun e mem => skipped e (quiet e mem)

/-- What the handler of a listener that is asked logs has the property. -/
theorem OthersLog.handler (others : w.OthersLog h P) {r : Routed} {ran : Nat}
    {l : Listener (Handler ω)} (next : (w.listenersFor r)[ran]? = some l) (e : Envelope) (world : ω) :
    ∀ entry ∈ (l.handler.handle e world).2.2, P entry := by
  obtain ⟨a, accepted, -, rfl⟩ := Registry.exists_of_mem_matching (List.mem_of_getElem? next)
  exact others.handlers a accepted e world

end Worker

end EventPipeline
