import EventPipeline.Proofs.Registry.History
import EventPipeline.Worker.Step

/-! # What a worker does in one step

`Worker.Does` has a case for each thing that one step of a worker can be, with everything the step
checks, changes and leaves behind, and `Worker.does_step` states that every step is one of them. A
`Move` is a step that was made, with the worlds before and after it; a worker `Makes` moves one
after another while others change the world in between.
-/

namespace EventPipeline

variable {ω κ : Type}

namespace Worker

/-- The worker offers an event of this message to the listeners that its origin names. -/
def Routes (w : Worker ω) (d : Delivery) (r : Routed) : Prop :=
  ∃ bs, d.content? = some bs ∧ Envelope.read bs = .ok r.event ∧
    w.route? d r.event = some (r.group, r.topic)

/-- The worker cannot tell where the event of this message came from. -/
def Orphans (w : Worker ω) (d : Delivery) (e : Envelope) : Prop :=
  ∃ bs, d.content? = some bs ∧ Envelope.read bs = .ok e ∧ w.route? d e = none

theorem Routes.unique {w : Worker ω} {d : Delivery} {r r' : Routed} (routes : w.Routes d r)
    (routes' : w.Routes d r') : r = r' := by
  obtain ⟨event, group, topic⟩ := r
  obtain ⟨event', group', topic'⟩ := r'
  obtain ⟨_, present, reads, route⟩ := routes
  obtain ⟨_, present', reads', route'⟩ := routes'
  rw [present] at present'
  cases present'
  rw [reads] at reads'
  cases reads'
  rw [route] at route'
  cases route'
  rfl

theorem Routes.not_orphans {w : Worker ω} {d : Delivery} {r : Routed} {e : Envelope}
    (routes : w.Routes d r) : ¬ w.Orphans d e := by
  rintro ⟨_, present', reads', nowhere⟩
  obtain ⟨_, present, reads, route⟩ := routes
  rw [present] at present'
  cases present'
  rw [reads] at reads'
  cases reads'
  rw [route] at nowhere
  cases nowhere

/-- The things that one step of a worker can be. -/
inductive Does (h : Host ω κ) (w : Worker ω) :
    WorkerState κ → ω → WorkerState κ → ω → List Occurrence → Prop where
  | connected {stats : Stats} {streak : Nat} {world world' : ω} {c : κ} {log : List LogEntry}
    (answer : h.connect w.subscription world = (.ok c, world', log)) :
    Does h w ⟨.unopened, stats, streak⟩ world ⟨.checking c, stats, streak⟩ world'
      (.logged .workerStarting :: .connected w.subscription none :: logged log ++
        [entered .init .subscribed, entered .subscribed .polling])
  | refused {stats : Stats} {streak : Nat} {world world' : ω} {e : BrokerError}
    {log : List LogEntry} (answer : h.connect w.subscription world = (.error e, world', log)) :
    Does h w ⟨.unopened, stats, streak⟩ world
      ⟨.ended (.failed (.consumer w.group e)), stats, streak⟩ world'
      (.logged .workerStarting :: .connected w.subscription (some e) :: logged log ++
        [.logged (.openFailed e)])
  | stopped {stats : Stats} {streak : Nat} {world : ω} {c : κ} (stopping : h.stopping world = true) :
    Does h w ⟨.checking c, stats, streak⟩ world ⟨.leaving c none, stats, streak⟩ world
      [.logged .shutdownSeen]
  | proceeded {stats : Stats} {streak : Nat} {world : ω} {c : κ}
    (going : h.stopping world = false) :
    Does h w ⟨.checking c, stats, streak⟩ world ⟨.waiting c, stats, streak⟩ world []
  | fetched {stats : Stats} {streak : Nat} {world world' : ω} {c c' : κ} {d : Delivery}
    {log : List LogEntry}
    (answer : h.poll c w.settings.pollTimeout world = ((.ok (some d), c'), world', log)) :
    Does h w ⟨.waiting c, stats, streak⟩ world ⟨.received c' d, stats, streak⟩ world'
      (.polled w.settings.pollTimeout (.ok (some d)) :: logged log)
  | timedOut {stats : Stats} {streak : Nat} {world world' : ω} {c c' : κ} {log : List LogEntry}
    (answer : h.poll c w.settings.pollTimeout world = ((.ok none, c'), world', log)) :
    Does h w ⟨.waiting c, stats, streak⟩ world ⟨.checking c', stats, streak⟩ world'
      (.polled w.settings.pollTimeout (.ok none) :: logged log)
  | pollStopped {stats : Stats} {streak : Nat} {world world' : ω} {c c' : κ} {e : BrokerError}
    {log : List LogEntry} (fatal : e.isFatal = true)
    (answer : h.poll c w.settings.pollTimeout world = ((.error e, c'), world', log)) :
    Does h w ⟨.waiting c, stats, streak⟩ world
      ⟨.leaving c' (some (.fatal w.group e)), stats, streak⟩ world'
      (.polled w.settings.pollTimeout (.error e) :: logged log)
  | pollFailed {stats : Stats} {streak : Nat} {world world' : ω} {c c' : κ} {e : BrokerError}
    {log : List LogEntry} (passing : e.isFatal = false)
    (answer : h.poll c w.settings.pollTimeout world = ((.error e, c'), world', log)) :
    Does h w ⟨.waiting c, stats, streak⟩ world ⟨.checking c', stats, streak⟩ world'
      (.polled w.settings.pollTimeout (.error e) :: logged log ++ [.logged (.pollFailed e)])
  | empty {stats : Stats} {streak : Nat} {world : ω} {c : κ} {d : Delivery}
    (absent : d.content? = none) :
    Does h w ⟨.received c d, stats, streak⟩ world ⟨.settling c d .empty, stats, streak⟩ world
      [.logged (.emptyPayload d.topic d.offset)]
  | malformed {stats : Stats} {streak : Nat} {world : ω} {c : κ} {d : Delivery} {bs : Octets}
    {e : Json.Error} (present : d.content? = some bs) (unread : Envelope.read bs = .error e) :
    Does h w ⟨.received c d, stats, streak⟩ world ⟨.settling c d .malformed, stats, streak⟩ world
      [.logged (.malformedPayload e d.topic d.offset)]
  | lost {stats : Stats} {streak : Nat} {world : ω} {c : κ} {d : Delivery} {e : Envelope}
    (orphan : w.Orphans d e) :
    Does h w ⟨.received c d, stats, streak⟩ world ⟨.orphaned c d e, stats, streak⟩ world
      [.logged (.originMissing d.topic d.offset)]
  | routed {stats : Stats} {streak : Nat} {world : ω} {c : κ} {d : Delivery} {r : Routed}
    (routes : w.Routes d r) :
    Does h w ⟨.received c d, stats, streak⟩ world ⟨.offering c d r 0, stats, streak⟩ world []
  | unrouted {stats : Stats} {streak : Nat} {world : ω} {c : κ} {d : Delivery} {r : Routed}
    (nobody : (w.listenersFor r)[0]? = none) :
    Does h w ⟨.offering c d r 0, stats, streak⟩ world ⟨.settling c d .unrouted, stats, streak⟩ world
      [.logged (.noListener r.group r.topic)]
  | handled {stats : Stats} {streak : Nat} {world : ω} {c : κ} {d : Delivery} {r : Routed}
    {ran : Nat} (some : ran ≠ 0) (done : (w.listenersFor r)[ran]? = none) :
    Does h w ⟨.offering c d r ran, stats, streak⟩ world
      ⟨.settling c d (.handled ran), stats, streak⟩ world []
  | accepted {stats : Stats} {streak : Nat} {world world' : ω} {c : κ} {d : Delivery} {r : Routed}
    {ran : Nat} {l : Listener (Handler ω)} {log : List LogEntry}
    (next : (w.listenersFor r)[ran]? = some l)
    (answer : l.handler.handle r.event world = (.ok (), world', log)) :
    Does h w ⟨.offering c d r ran, stats, streak⟩ world
      ⟨.offering c d r (ran + 1), stats, streak⟩ world'
      (.offered l.handler.name r.event (.ok ()) :: logged log)
  | failed {stats : Stats} {streak : Nat} {world world' : ω} {c : κ} {d : Delivery} {r : Routed}
    {ran : Nat} {l : Listener (Handler ω)} {f : Failure} {log : List LogEntry}
    (next : (w.listenersFor r)[ran]? = some l)
    (answer : l.handler.handle r.event world = (.error f, world', log)) :
    Does h w ⟨.offering c d r ran, stats, streak⟩ world ⟨.failing c d r, stats, streak⟩ world'
      (.offered l.handler.name r.event (.error f) :: logged log ++
        [.logged (.handlerFailed l.handler.name f r.group r.topic r.event.retryCount)])
  | misrouted {stats : Stats} {streak : Nat} {world : ω} {c : κ} {d : Delivery} {r : Routed}
    (unplanned : w.failureTopics.plan? r.event r.group r.topic = none) :
    Does h w ⟨.failing c d r, stats, streak⟩ world
      ⟨.settling c d .escalationFailed, stats, streak⟩ world
      [.logged (.escalationFailed (.misrouted r.group r.topic))]
  | escalated {stats : Stats} {streak : Nat} {world world' : ω} {c : κ} {d : Delivery} {r : Routed}
    {path : Escalation} {e : Envelope} {log more : List LogEntry}
    (planned : w.failureTopics.plan? r.event r.group r.topic = some (path, e))
    (answer : w.publisher.sink.produce
      (Publisher.record (w.failureTopics.topicOf path) e d.keyText?) world = (.ok (), world', log)) :
    Does h w ⟨.failing c d r, stats, streak⟩ world
      ⟨.settling c d (.escalated path), stats, streak⟩ world'
      (.published (Publisher.record (w.failureTopics.topicOf path) e d.keyText?) :: logged more)
  | notEscalated {stats : Stats} {streak : Nat} {world world' : ω} {c : κ} {d : Delivery}
    {r : Routed} {path : Escalation} {e : Envelope} {error : BrokerError}
    {log more : List LogEntry}
    (planned : w.failureTopics.plan? r.event r.group r.topic = some (path, e))
    (answer : w.publisher.sink.produce
      (Publisher.record (w.failureTopics.topicOf path) e d.keyText?) world =
        (.error error, world', log)) :
    Does h w ⟨.failing c d r, stats, streak⟩ world
      ⟨.settling c d .escalationFailed, stats, streak⟩ world'
      (.published (Publisher.record (w.failureTopics.topicOf path) e d.keyText?) :: logged more ++
        [.logged (.escalationFailed
          (.publish (w.failureTopics.topicOf path) (.broker error)))])
  | buried {stats : Stats} {streak : Nat} {world world' : ω} {c : κ} {d : Delivery} {e : Envelope}
    {log more : List LogEntry}
    (answer : w.publisher.sink.produce
      (Publisher.record w.failureTopics.deadTopic e d.keyText?) world = (.ok (), world', log)) :
    Does h w ⟨.orphaned c d e, stats, streak⟩ world ⟨.settling c d .orphaned, stats, streak⟩ world'
      (.published (Publisher.record w.failureTopics.deadTopic e d.keyText?) :: logged more)
  | notBuried {stats : Stats} {streak : Nat} {world world' : ω} {c : κ} {d : Delivery}
    {e : Envelope} {error : BrokerError} {log more : List LogEntry}
    (answer : w.publisher.sink.produce
      (Publisher.record w.failureTopics.deadTopic e d.keyText?) world =
        (.error error, world', log)) :
    Does h w ⟨.orphaned c d e, stats, streak⟩ world ⟨.settling c d .orphaned, stats, streak⟩ world'
      (.published (Publisher.record w.failureTopics.deadTopic e d.keyText?) :: logged more ++
        [.logged (.deadLetterFailed (.publish w.failureTopics.deadTopic (.broker error)))])
  | committed {stats : Stats} {streak : Nat} {world world' : ω} {c c' : κ} {d : Delivery}
    {outcome : Outcome} {log : List LogEntry}
    (answer : h.commit c d world = ((.ok (), c'), world', log)) :
    Does h w ⟨.settling c d outcome, stats, streak⟩ world
      ⟨w.resume c' outcome (nextStreak streak outcome), stats.record outcome,
        nextStreak streak outcome⟩ world'
      (.settled d outcome :: .committed d (.ok ()) :: logged log ++
        .logged (.offsetCommitted d.topic d.partition d.offset) ::
        w.afterCommit outcome (stats.record outcome) (nextStreak streak outcome))
  | commitFailed {stats : Stats} {streak : Nat} {world world' : ω} {c c' : κ} {d : Delivery}
    {outcome : Outcome} {e : BrokerError} {log : List LogEntry} (passing : e.isFatal = false)
    (answer : h.commit c d world = ((.error e, c'), world', log)) :
    Does h w ⟨.settling c d outcome, stats, streak⟩ world
      ⟨w.resume c' outcome (nextStreak streak outcome), stats.record outcome,
        nextStreak streak outcome⟩ world'
      (.settled d outcome :: .committed d (.error e) :: logged log ++
        .logged (.commitFailed e d.topic d.offset) ::
        w.afterCommit outcome (stats.record outcome) (nextStreak streak outcome))
  | commitStopped {stats : Stats} {streak : Nat} {world world' : ω} {c c' : κ} {d : Delivery}
    {outcome : Outcome} {e : BrokerError} {log : List LogEntry} (fatal : e.isFatal = true)
    (answer : h.commit c d world = ((.error e, c'), world', log)) :
    Does h w ⟨.settling c d outcome, stats, streak⟩ world
      ⟨.leaving c' (some (.fatal w.group e)), stats.record outcome, nextStreak streak outcome⟩ world'
      (.settled d outcome :: .committed d (.error e) :: logged log)
  | closed {stats : Stats} {streak : Nat} {world world' : ω} {c : κ} {log : List LogEntry}
    (answer : h.close c world = ((), world', log)) :
    Does h w ⟨.leaving c none, stats, streak⟩ world ⟨.ended (.stopped stats), stats, streak⟩ world'
      (entered .polling .shuttingDown :: .closed :: logged log ++
        [entered .shuttingDown .closed, .logged (.workerStopped stats)])
  | gaveUp {stats : Stats} {streak : Nat} {world world' : ω} {c : κ} {e : WorkerError}
    {log : List LogEntry} (answer : h.close c world = ((), world', log)) :
    Does h w ⟨.leaving c (some e), stats, streak⟩ world ⟨.ended (.failed e), stats, streak⟩ world'
      (entered .polling .shuttingDown :: .closed :: logged log ++
        [entered .shuttingDown .closed, .logged (.workerFailed e stats)])
  | rested {stats : Stats} {streak : Nat} {world : ω} {exit : Exit} :
    Does h w ⟨.ended exit, stats, streak⟩ world ⟨.ended exit, stats, streak⟩ world []

/-! ### Every step is one of them -/

theorem does_connect (h : Host ω κ) (w : Worker ω) (stats : Stats) (streak : Nat) (world : ω)
    {s' : WorkerState κ} {world' : ω} {happened : List Occurrence}
    (made : w.connect h ⟨.unopened, stats, streak⟩ world = (s', world', happened)) :
    Does h w ⟨.unopened, stats, streak⟩ world s' world' happened := by
  unfold connect at made
  split at made
  next _ answer world' log connects =>
    cases answer with
    | ok c =>
      cases made
      exact .connected connects
    | error e =>
      cases made
      exact .refused connects

theorem does_poll (h : Host ω κ) (w : Worker ω) (stats : Stats) (streak : Nat) (c : κ) (world : ω)
    {s' : WorkerState κ} {world' : ω} {happened : List Occurrence}
    (made : w.poll h ⟨.waiting c, stats, streak⟩ c world = (s', world', happened)) :
    Does h w ⟨.waiting c, stats, streak⟩ world s' world' happened := by
  unfold poll at made
  split at made
  next _ answer c' world' log polls =>
    dsimp only at made
    split at made
    · cases made
      exact .fetched polls
    · cases made
      exact .timedOut polls
    · split at made
      · next fatal =>
        cases made
        exact .pollStopped fatal polls
      · next passing =>
        cases made
        exact .pollFailed (Bool.eq_false_iff.mpr passing) polls

theorem does_examine (h : Host ω κ) (w : Worker ω) (stats : Stats) (streak : Nat) (c : κ)
    (d : Delivery) (world : ω) {s' : WorkerState κ} {world' : ω} {happened : List Occurrence}
    (made : w.examine ⟨.received c d, stats, streak⟩ c d world = (s', world', happened)) :
    Does h w ⟨.received c d, stats, streak⟩ world s' world' happened := by
  unfold examine at made
  split at made
  · next absent =>
    cases made
    exact .empty absent
  · next bs present =>
    split at made
    · next e unread =>
      cases made
      exact .malformed present unread
    · next e reads =>
      split at made
      · next nowhere =>
        cases made
        exact .lost ⟨bs, present, reads, nowhere⟩
      · next group topic somewhere =>
        cases made
        exact .routed ⟨bs, present, reads, somewhere⟩

theorem does_offer (h : Host ω κ) (w : Worker ω) (stats : Stats) (streak : Nat) (c : κ)
    (d : Delivery) (r : Routed) (ran : Nat) (world : ω) {s' : WorkerState κ} {world' : ω}
    {happened : List Occurrence}
    (made : w.offer ⟨.offering c d r ran, stats, streak⟩ c d r ran world =
      (s', world', happened)) :
    Does h w ⟨.offering c d r ran, stats, streak⟩ world s' world' happened := by
  cases next : (w.listenersFor r)[ran]? with
  | none =>
    simp only [offer, next] at made
    split at made
    · next none =>
      subst none
      cases made
      exact .unrouted next
    · next some =>
      cases made
      exact .handled some next
  | some l =>
    rcases answer : l.handler.handle r.event world with ⟨result, after, log⟩
    simp only [offer, next, answer] at made
    cases result with
    | ok =>
      cases made
      exact .accepted next answer
    | error f =>
      cases made
      exact .failed next answer

theorem publishFailed_cases (p : Publisher ω) (topic : String) (e : Envelope) (key : Option String)
    (world : ω) : ∃ world' log more,
      (p.sink.produce (Publisher.record topic e key) world = (.ok (), world', log) ∧
        p.publishFailed topic e key world = (.ok (), world', more)) ∨
      ∃ error, p.sink.produce (Publisher.record topic e key) world = (.error error, world', log) ∧
        p.publishFailed topic e key world =
          (.error (.publish topic (.broker error)), world', more) := by
  rcases produced : p.sink.produce (Publisher.record topic e key) world with ⟨answer, after, log⟩
  cases answer with
  | ok =>
    exact ⟨after, log, _, .inl ⟨rfl, by
      simp only [Publisher.publishFailed, Publisher.sendFilled, Act.bind_apply, produced]
      rfl⟩⟩
  | error error =>
    exact ⟨after, log, _, .inr ⟨error, rfl, by
      simp only [Publisher.publishFailed, Publisher.sendFilled, Act.bind_apply, produced]
      rfl⟩⟩

theorem does_escalate (h : Host ω κ) (w : Worker ω) (stats : Stats) (streak : Nat) (c : κ)
    (d : Delivery) (r : Routed) (world : ω) {s' : WorkerState κ} {world' : ω}
    {happened : List Occurrence}
    (made : w.escalate ⟨.failing c d r, stats, streak⟩ c d r world = (s', world', happened)) :
    Does h w ⟨.failing c d r, stats, streak⟩ world s' world' happened := by
  cases planned : w.failureTopics.plan? r.event r.group r.topic with
  | none =>
    have answer : w.publisher.escalate r.event r.group r.topic d.keyText? world =
        ((.error (.misrouted r.group r.topic), r.event), world, []) := by
      have planned' : w.publisher.failureTopics.plan? r.event r.group r.topic = none := planned
      simp only [Publisher.escalate, planned', Act.pure_apply]
    simp only [escalate, planned, answer] at made
    cases made
    exact .misrouted planned
  | some plan =>
    obtain ⟨path, e⟩ := plan
    have planned' : w.publisher.failureTopics.plan? r.event r.group r.topic = some (path, e) :=
      planned
    obtain ⟨after, log, more, ⟨produced, published⟩ | ⟨error, produced, published⟩⟩ :=
      publishFailed_cases w.publisher (w.failureTopics.topicOf path) e d.keyText? world
    · have published' : w.publisher.publishFailed (w.publisher.failureTopics.topicOf path) e
          d.keyText? world = _ := published
      simp only [escalate, planned, Publisher.escalate, planned', Act.bind_apply, published',
        Act.log_apply, Act.pure_apply] at made
      cases made
      exact .escalated planned produced
    · have published' : w.publisher.publishFailed (w.publisher.failureTopics.topicOf path) e
          d.keyText? world = _ := published
      simp only [escalate, planned, Publisher.escalate, planned', Act.bind_apply, published',
        Act.pure_apply] at made
      cases made
      exact .notEscalated planned produced

theorem does_bury (h : Host ω κ) (w : Worker ω) (stats : Stats) (streak : Nat) (c : κ)
    (d : Delivery) (e : Envelope) (world : ω) {s' : WorkerState κ} {world' : ω}
    {happened : List Occurrence}
    (made : w.bury ⟨.orphaned c d e, stats, streak⟩ c d e world = (s', world', happened)) :
    Does h w ⟨.orphaned c d e, stats, streak⟩ world s' world' happened := by
  obtain ⟨after, log, more, ⟨produced, published⟩ | ⟨error, produced, published⟩⟩ :=
    publishFailed_cases w.publisher w.failureTopics.deadTopic e d.keyText? world
  · have published' : w.publisher.publishFailed w.publisher.failureTopics.deadTopic e
        d.keyText? world = _ := published
    simp only [bury, Publisher.deadLetter, Act.bind_apply, published', Act.log_apply,
      Act.pure_apply] at made
    cases made
    rw [List.append_nil]
    exact .buried produced
  · have published' : w.publisher.publishFailed w.publisher.failureTopics.deadTopic e
        d.keyText? world = _ := published
    simp only [bury, Publisher.deadLetter, Act.bind_apply, published', Act.pure_apply] at made
    cases made
    exact .notBuried produced

theorem does_settle (h : Host ω κ) (w : Worker ω) (stats : Stats) (streak : Nat) (c : κ)
    (d : Delivery) (outcome : Outcome) (world : ω) {s' : WorkerState κ} {world' : ω}
    {happened : List Occurrence}
    (made : w.settle h ⟨.settling c d outcome, stats, streak⟩ c d outcome world =
      (s', world', happened)) :
    Does h w ⟨.settling c d outcome, stats, streak⟩ world s' world' happened := by
  rcases committed : h.commit c d world with ⟨⟨answer, c'⟩, after, log⟩
  simp only [settle, committed] at made
  cases answer with
  | ok =>
    cases made
    exact .committed committed
  | error e =>
    dsimp only at made
    split at made
    · next fatal =>
      cases made
      exact .commitStopped fatal committed
    · next passing =>
      cases made
      exact .commitFailed (Bool.eq_false_iff.mpr passing) committed

/-- Every step of a worker is one of the things that a step can be. -/
theorem does_step {h : Host ω κ} {w : Worker ω} {s s' : WorkerState κ} {world world' : ω}
    {happened : List Occurrence} (made : w.step h s world = (s', world', happened)) :
    Does h w s world s' world' happened := by
  obtain ⟨phase, stats, streak⟩ := s
  cases phase with
  | unopened => exact does_connect h w stats streak world made
  | checking c =>
    simp only [step, check] at made
    split at made
    · next stopping =>
      cases made
      exact .stopped stopping
    · next going =>
      cases made
      exact .proceeded (Bool.eq_false_iff.mpr going)
  | waiting c => exact does_poll h w stats streak c world made
  | received c d => exact does_examine h w stats streak c d world made
  | offering c d r ran => exact does_offer h w stats streak c d r ran world made
  | failing c d r => exact does_escalate h w stats streak c d r world made
  | orphaned c d e => exact does_bury h w stats streak c d e world made
  | settling c d outcome => exact does_settle h w stats streak c d outcome world made
  | leaving c error? =>
    rcases answer : h.close c world with ⟨_, after, log⟩
    simp only [step, leave, answer] at made
    cases error? with
    | none =>
      cases made
      exact .closed answer
    | some e =>
      cases made
      exact .gaveUp answer
  | ended exit =>
    cases made
    exact .rested

end Worker

/-! ### Moves -/

/-- A step that was made, with the worlds before and after it. -/
structure Move (ω κ : Type) where
  before : WorkerState κ
  found : ω
  after : WorkerState κ
  left : ω
  happened : List Occurrence

/-- The worker makes these moves one after another. Between two of them the world may change in any
way. -/
inductive Worker.Makes (h : Host ω κ) (w : Worker ω) (start : WorkerState κ) :
    List (Move ω κ) → WorkerState κ → Prop where
  | start : Makes h w start [] start
  | step {moves : List (Move ω κ)} {s s' : WorkerState κ} {world world' : ω}
    {happened : List Occurrence} (earlier : Makes h w start moves s)
    (made : w.step h s world = (s', world', happened)) :
    Makes h w start (moves ++ [⟨s, world, s', world', happened⟩]) s'

end EventPipeline
