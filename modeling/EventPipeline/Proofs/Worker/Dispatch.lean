import EventPipeline.Proofs.Worker.Moves

/-! # The dispatch of one message

`Worker.Dispatches` follows a worker from a received message to the point where it is done with it.
Its steps keep the message and what its envelope says, hand records to the sink only as the last of
them, and end in a failure exactly when some handler failed.
-/

namespace EventPipeline

variable {ω κ : Type}

/-- The message a worker has at hand, and the consumer that it came from. -/
def Phase.held? : Phase κ → Option (κ × Delivery)
  | .received c d | .offering c d _ _ | .failing c d _ | .orphaned c d _ | .settling c d _ =>
    some (c, d)
  | _ => none

/-- The worker has a message that it is not done with. -/
def Phase.IsOpen : Phase κ → Prop
  | .received _ _ | .offering _ _ _ _ | .failing _ _ _ | .orphaned _ _ _ => True
  | _ => False

/-- The event at hand, with the listeners it is meant for. -/
def Phase.routed? : Phase κ → Option Routed
  | .offering _ _ r _ | .failing _ _ r => some r
  | _ => none

/-- A handler failed on the message at hand. -/
def Phase.HasFailed : Phase κ → Prop
  | .failing _ _ _ => True
  | .settling _ _ outcome => outcome.isFailure = true
  | _ => False

/-- How many steps of the worker the message at hand takes at most, its commit being the last, if so many
listeners are registered. -/
def Phase.stepsLeft (listeners : Nat) : Phase κ → Nat
  | .received _ _ => listeners + 4
  | .offering _ _ _ ran => listeners - ran + 3
  | .failing _ _ _ | .orphaned _ _ _ => 2
  | .settling _ _ _ => 1
  | _ => 0

/-- A record that was handed to the sink. -/
def Occurrence.record? : Occurrence → Option Outgoing
  | .published record => some record
  | _ => none

/-- Some handler failed among these occurrences. -/
def Fails (happened : List Occurrence) : Prop :=
  ∃ name e f, Occurrence.offered name e (.error f) ∈ happened

/-- The records that a worker handed to the sink in its moves. -/
def published (moves : List (Move ω κ)) : List Outgoing :=
  moves.flatMap fun m => m.happened.filterMap Occurrence.record?

@[simp] theorem record?_published (record : Outgoing) :
    (Occurrence.published record).record? = some record := rfl

@[simp] theorem record?_logged (e : LogEntry) : (Occurrence.logged e).record? = none := rfl

@[simp] theorem record?_offered (name : String) (e : Envelope) (result : Except Failure Unit) :
    (Occurrence.offered name e result).record? = none := rfl

@[simp] theorem filterMap_record?_logged (log : List LogEntry) :
    (logged log).filterMap Occurrence.record? = [] := by
  simp [logged, List.filterMap_map, Occurrence.record?, Function.comp_def]

theorem not_mem_logged {log : List LogEntry} {name : String} {e : Envelope}
    {result : Except Failure Unit} : Occurrence.offered name e result ∉ logged log := by
  simp [logged]

@[simp] theorem published_nil : published ([] : List (Move ω κ)) = [] := rfl

@[simp] theorem published_append (first second : List (Move ω κ)) :
    published (first ++ second) = published first ++ published second := List.flatMap_append

theorem published_cons (m : Move ω κ) (moves : List (Move ω κ)) :
    published (m :: moves) = m.happened.filterMap Occurrence.record? ++ published moves :=
  List.flatMap_cons

theorem published_singleton (m : Move ω κ) :
    published [m] = m.happened.filterMap Occurrence.record? := List.flatMap_singleton ..

theorem Registry.length_matching_le {η : Type} (registry : Registry η) (group topic : String)
    (ns : Option String) :
    (registry.matching group topic ns).length ≤ registry.accepted.length := by
  refine Nat.le_trans (List.length_filter_le ..) ?_
  rw [listeners, List.length_map]
  exact List.length_filter_le ..

namespace Worker

theorem not_mem_afterCommit {w : Worker ω} {outcome : Outcome} {stats : Stats} {streak : Nat}
    {name : String} {e : Envelope} {result : Except Failure Unit} :
    Occurrence.offered name e result ∉ w.afterCommit outcome stats streak := by
  unfold afterCommit
  intro offers
  rcases List.mem_append.mp offers with progress | rest
  · split at progress <;> simp at progress
  · split at rest
    · cases rest
    · split at rest <;> simp at rest

variable {h : Host ω κ} {w : Worker ω}

/-- The worker made these moves between receiving a message and the present state. -/
inductive Dispatches (h : Host ω κ) (w : Worker ω) (c : κ) (d : Delivery) :
    List (Move ω κ) → WorkerState κ → Prop where
  | received (stats : Stats) (streak : Nat) : Dispatches h w c d [] ⟨.received c d, stats, streak⟩
  | step {moves : List (Move ω κ)} {s s' : WorkerState κ} {world world' : ω}
    {happened : List Occurrence} (earlier : Dispatches h w c d moves s) (unfinished : s.phase.IsOpen)
    (made : w.step h s world = (s', world', happened)) :
    Dispatches h w c d (moves ++ [⟨s, world, s', world', happened⟩]) s'

/-- A dispatch goes on with whatever the next step does in the world it finds. -/
theorem Dispatches.next {c : κ} {d : Delivery} {moves : List (Move ω κ)} {s : WorkerState κ}
    (run : Dispatches h w c d moves s) (unfinished : s.phase.IsOpen) (world : ω) :
    ∃ m, Dispatches h w c d (moves ++ [m]) (w.step h s world).1 :=
  ⟨_, run.step unfinished rfl⟩

/-! ### One step -/

section Step

variable {s s' : WorkerState κ} {world world' : ω} {happened : List Occurrence}

theorem Does.held (does : Does h w s world s' world' happened) (unfinished : s.phase.IsOpen) :
    s'.phase.held? = s.phase.held? := by
  cases does <;> first | rfl | exact unfinished.elim

theorem Does.routed_cases (does : Does h w s world s' world' happened)
    (unfinished : s.phase.IsOpen) {c : κ} {d : Delivery} (held : s.phase.held? = some (c, d))
    {r : Routed} (routed : s'.phase.routed? = some r) :
    w.Routes d r ∨ s.phase.routed? = some r := by
  cases does <;> first
    | exact unfinished.elim
    | cases routed
  case routed routes =>
    cases held
    exact .inl routes
  all_goals exact .inr rfl

theorem Does.orphan (does : Does h w s world s' world' happened) (unfinished : s.phase.IsOpen)
    {c : κ} {d : Delivery} {e : Envelope} (orphaned : s'.phase = .orphaned c d e) :
    w.Orphans d e := by
  cases does <;> first
    | exact unfinished.elim
    | cases orphaned
  case lost orphan => exact orphan

theorem Does.hasFailed (does : Does h w s world s' world' happened) (unfinished : s.phase.IsOpen) :
    s'.phase.HasFailed ↔ s.phase.HasFailed ∨ Fails happened := by
  cases does <;> simp_all [Phase.HasFailed, Phase.IsOpen, Outcome.isFailure, Fails, not_mem_logged]

/-- An event is offered to the next of the listeners that it is meant for. -/
theorem Does.offered (does : Does h w s world s' world' happened) {name : String} {e : Envelope}
    {result : Except Failure Unit} (offers : Occurrence.offered name e result ∈ happened) :
    ∃ c d r ran l log, s.phase = .offering c d r ran ∧ (w.listenersFor r)[ran]? = some l ∧
      name = l.handler.name ∧ e = r.event ∧
      l.handler.handle r.event world = (result, world', log) := by
  cases does
  case accepted c d r ran l log next answer =>
    have this : name = l.handler.name ∧ e = r.event ∧ result = .ok () := by
      simpa [not_mem_logged] using offers
    obtain ⟨rfl, rfl, rfl⟩ := this
    exact ⟨c, d, r, ran, l, log, rfl, next, rfl, rfl, answer⟩
  case failed c d r ran l f log next answer =>
    have this : name = l.handler.name ∧ e = r.event ∧ result = .error f := by
      simpa [not_mem_logged] using offers
    obtain ⟨rfl, rfl, rfl⟩ := this
    exact ⟨c, d, r, ran, l, log, rfl, next, rfl, rfl, answer⟩
  case committed => exact absurd offers (by simp [not_mem_logged, not_mem_afterCommit])
  case commitFailed => exact absurd offers (by simp [not_mem_logged, not_mem_afterCommit])
  all_goals exact absurd offers (by simp [not_mem_logged, entered])

/-- Each step of a dispatch is one of those that the message at hand takes. -/
theorem Does.stepsLeft_lt (does : Does h w s world s' world' happened)
    (unfinished : s.phase.IsOpen) :
    s'.phase.stepsLeft w.registry.accepted.length < s.phase.stepsLeft w.registry.accepted.length := by
  cases does <;> first
    | exact unfinished.elim
    | simp only [Phase.stepsLeft]
  case accepted r ran l log next answer =>
    have among := (List.getElem?_eq_some_iff.mp next).1
    have registered := w.registry.length_matching_le r.group r.topic r.event.ns
    rw [listenersFor] at among
    omega
  all_goals omega

/-- A step after which there is still something to do with the message hands no record to the
sink. -/
theorem Does.quiet (does : Does h w s world s' world' happened) (unfinished : s.phase.IsOpen)
    (further : s'.phase.IsOpen) : happened.filterMap Occurrence.record? = [] := by
  cases does <;> first
    | exact unfinished.elim
    | exact further.elim
    | simp [List.filterMap_cons, -List.filterMap_eq_nil_iff]

end Step

/-! ### A dispatch so far -/

variable {c : κ} {d : Delivery} {moves : List (Move ω κ)} {s : WorkerState κ}

theorem Dispatches.held (run : Dispatches h w c d moves s) : s.phase.held? = some (c, d) := by
  induction run with
  | received => rfl
  | step _ unfinished made ih => rw [(does_step made).held unfinished, ih]

theorem Dispatches.routes (run : Dispatches h w c d moves s) {r : Routed}
    (routed : s.phase.routed? = some r) : w.Routes d r := by
  induction run with
  | received => cases routed
  | step earlier unfinished made ih =>
    rcases (does_step made).routed_cases unfinished earlier.held routed with routes | before
    · exact routes
    · exact ih before

theorem Dispatches.orphan (run : Dispatches h w c d moves s) {e : Envelope}
    (orphaned : s.phase = .orphaned c d e) : w.Orphans d e := by
  cases run with
  | received => cases orphaned
  | step _ unfinished made => exact (does_step made).orphan unfinished orphaned

theorem Dispatches.hasFailed_iff (run : Dispatches h w c d moves s) :
    s.phase.HasFailed ↔ ∃ m ∈ moves, Fails m.happened := by
  induction run with
  | received => simp [Phase.HasFailed]
  | step _ unfinished made ih =>
    rw [(does_step made).hasFailed unfinished, ih]
    simp [or_and_right, exists_or]

theorem Dispatches.quiet (run : Dispatches h w c d moves s) (unfinished : s.phase.IsOpen) :
    published moves = [] := by
  induction run with
  | received => rfl
  | step _ before made ih =>
    rw [published_append, published_singleton, ih before, (does_step made).quiet before unfinished]
    rfl

/-! ### The end of a dispatch -/

/-- After a failure the last step moves the event on. An event that is addressed to the retry path has no
plan and stays where it is; any other is handed to the sink, as the only record of the dispatch, and the
sink's answer is the outcome. -/
theorem Dispatches.failure_cases (run : Dispatches h w c d moves s) {c' : κ} {d' : Delivery}
    {outcome : Outcome} (settling : s.phase = .settling c' d' outcome)
    (failure : outcome.isFailure = true) :
    ∃ earlier last r, moves = earlier ++ [last] ∧ Dispatches h w c d earlier last.before ∧
      w.Routes d r ∧ last.before.phase = .failing c d r ∧
      (w.failureTopics.plan? r.event r.group r.topic = none ∧ outcome = .escalationFailed ∧
          last.left = last.found ∧ published moves = [] ∨
        ∃ path e answer log, w.failureTopics.plan? r.event r.group r.topic = some (path, e) ∧
          w.publisher.sink.produce (Publisher.record (w.failureTopics.topicOf path) e d.keyText?)
            last.found = (answer, last.left, log) ∧
          published moves = [Publisher.record (w.failureTopics.topicOf path) e d.keyText?] ∧
          (answer = .ok () ∧ outcome = .escalated path ∨
            ∃ error, answer = .error error ∧ outcome = .escalationFailed)) := by
  cases run with
  | received => cases settling
  | @step earlier before _ world world' happened first unfinished made =>
    have held := first.held
    have none := first.quiet unfinished
    cases does_step made <;> first
      | exact unfinished.elim
      | (cases settling; cases failure)
      | cases settling
    all_goals cases held
    case step.misrouted.refl.refl _ _ r unplanned =>
      refine ⟨earlier, _, r, rfl, first, first.routes rfl, rfl, .inl ⟨unplanned, rfl, rfl, ?_⟩⟩
      rw [published_append, published_singleton, none, List.nil_append]
      simp
    case step.escalated.refl.refl _ _ r path e log more planned answer =>
      refine ⟨earlier, _, r, rfl, first, first.routes rfl, rfl,
        .inr ⟨path, e, _, log, planned, answer, ?_, .inl ⟨rfl, rfl⟩⟩⟩
      rw [published_append, published_singleton, none, List.nil_append]
      simp
    case step.notEscalated.refl.refl _ _ r path e error log more planned answer =>
      refine ⟨earlier, _, r, rfl, first, first.routes rfl, rfl,
        .inr ⟨path, e, _, log, planned, answer, ?_, .inr ⟨error, rfl, rfl⟩⟩⟩
      rw [published_append, published_singleton, none, List.nil_append]
      simp [List.filterMap_cons]

/-- An event that was moved on was handed to the sink, which took it, in the last step and as the
only record. -/
theorem Dispatches.escalated (run : Dispatches h w c d moves s) {c' : κ} {d' : Delivery}
    {path : Escalation} (settling : s.phase = .settling c' d' (.escalated path)) :
    ∃ earlier last r e log, moves = earlier ++ [last] ∧ Dispatches h w c d earlier last.before ∧
      w.Routes d r ∧ last.before.phase = .failing c d r ∧
      w.failureTopics.plan? r.event r.group r.topic = some (path, e) ∧
      w.publisher.sink.produce (Publisher.record (w.failureTopics.topicOf path) e d.keyText?)
        last.found = (.ok (), last.left, log) ∧
      published moves = [Publisher.record (w.failureTopics.topicOf path) e d.keyText?] := by
  obtain ⟨earlier, last, r, split, first, routes, failing, ⟨-, other, -⟩ |
    ⟨path', e, _, log, planned, answer, single, ⟨rfl, same⟩ | ⟨_, -, other⟩⟩⟩ :=
    run.failure_cases settling rfl
  · cases other
  · cases same
    exact ⟨earlier, last, r, e, log, split, first, routes, failing, planned, answer, single⟩
  · cases other

/-- An event that could not be moved on was addressed to the retry path or refused by the sink. -/
theorem Dispatches.escalationFailed (run : Dispatches h w c d moves s) {c' : κ} {d' : Delivery}
    (settling : s.phase = .settling c' d' .escalationFailed) :
    ∃ earlier last r, moves = earlier ++ [last] ∧ w.Routes d r ∧
      last.before.phase = .failing c d r ∧
      (w.failureTopics.plan? r.event r.group r.topic = none ∧ last.left = last.found ∨
        ∃ path e error log, w.failureTopics.plan? r.event r.group r.topic = some (path, e) ∧
          w.publisher.sink.produce (Publisher.record (w.failureTopics.topicOf path) e d.keyText?)
            last.found = (.error error, last.left, log)) := by
  obtain ⟨earlier, last, r, split, -, routes, failing, ⟨unplanned, -, still, -⟩ |
    ⟨path, e, _, log, planned, answer, -, ⟨-, other⟩ | ⟨error, rfl, -⟩⟩⟩ :=
    run.failure_cases settling rfl
  · exact ⟨earlier, last, r, split, routes, failing, .inl ⟨unplanned, still⟩⟩
  · cases other
  · exact ⟨earlier, last, r, split, routes, failing, .inr ⟨path, e, error, log, planned, answer⟩⟩

/-- An event of unknown origin was offered to the sink for the dead-letter topic, as it is and in
the last step. -/
theorem Dispatches.orphaned (run : Dispatches h w c d moves s) {c' : κ} {d' : Delivery}
    (settling : s.phase = .settling c' d' .orphaned) :
    ∃ earlier last e answer log, moves = earlier ++ [last] ∧ w.Orphans d e ∧
      w.publisher.sink.produce (Publisher.record w.failureTopics.deadTopic e d.keyText?)
        last.found = (answer, last.left, log) ∧
      published moves = [Publisher.record w.failureTopics.deadTopic e d.keyText?] := by
  cases run with
  | received => cases settling
  | @step earlier before _ world world' happened first unfinished made =>
    have held := first.held
    have none := first.quiet unfinished
    cases does_step made <;> first
      | exact unfinished.elim
      | cases settling
    all_goals cases held
    case step.buried.refl.refl _ _ e log more answer =>
      refine ⟨earlier, _, e, _, log, rfl, first.orphan rfl, answer, ?_⟩
      rw [published_append, published_singleton, none, List.nil_append]
      simp
    case step.notBuried.refl.refl _ _ e error log more answer =>
      refine ⟨earlier, _, e, _, log, rfl, first.orphan rfl, answer, ?_⟩
      rw [published_append, published_singleton, none, List.nil_append]
      simp [List.filterMap_cons]

end Worker

end EventPipeline
