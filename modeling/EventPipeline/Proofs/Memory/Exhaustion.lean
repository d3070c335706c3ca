import Mathlib.Algebra.Order.BigOperators.Group.List
import EventPipeline.Proofs.Memory.Agenda
import EventPipeline.Proofs.Memory.Retries

/-! # Retry traffic dies out

An event has a budget of retries, which each failure lowers by one. A record that a worker adds to the
retry topic takes its budget, and one more, from the message at hand. So the budgets of all that was
there to read at the start pay for every retry, however the workers take turns, whatever the records
say, and whatever the handlers do, as long as they publish nothing.
-/

namespace EventPipeline

open Worker

/-- How many times an event can still be retried. -/
def Envelope.budget (e : Envelope) : Nat := maxFailures.toNat - e.retryCount.toNat

theorem Envelope.budget_retried {e : Envelope} (remaining : e.retryCount < maxFailures)
    (group topic : String) : (e.retried group topic).budget + 1 = e.budget := by
  have small : e.retryCount.toNat < 3 := remaining
  have three : maxFailures.toNat = 3 := rfl
  rw [budget, budget, retryCount_retried, toNat_succ_retryCount remaining, three]
  omega

/-- How many times the event of a payload can still be retried; without an event it cannot. -/
def retryBudget (payload : Option Octets) : Nat :=
  match payload with
  | none => 0
  | some bs =>
    match Envelope.read bs with
    | .ok e => e.budget
    | .error _ => 0

theorem retryBudget_of_read {bs : Octets} {e : Envelope} (reads : Envelope.read bs = .ok e) :
    retryBudget (some bs) = e.budget := by
  rw [retryBudget, reads]

theorem retryBudget_le (payload : Option Octets) : retryBudget payload ≤ maxFailures.toNat := by
  unfold retryBudget
  split
  · exact Nat.zero_le _
  · split
    · exact Nat.sub_le _ _
    · exact Nat.zero_le _

theorem Worker.Routes.retryBudget_eq {ω : Type} {w : Worker ω} {d : Delivery} {r : Routed}
    (routes : w.Routes d r) : retryBudget d.payload = r.event.budget := by
  obtain ⟨bs, present, reads, -⟩ := routes
  rw [d.payload_of_content? present, retryBudget_of_read reads]

/-- A worker has found out whom the event at hand is meant for. -/
theorem Worker.Makes.routes {ω κ : Type} {h : Host ω κ} {w : Worker ω} {s : WorkerState κ}
    {moves : List (Move ω κ)} (run : w.Makes h .initial moves s) {c : κ} {d : Delivery} {r : Routed}
    (failing : s.phase = .failing c d r) : w.Routes d r := by
  obtain ⟨_, dispatch, -, dispatches⟩ := run.dispatches rfl (congrArg Phase.held? failing)
  exact dispatches.routes (congrArg Phase.routed? failing)

/-- A worker has found out that it cannot tell where the event at hand came from. -/
theorem Worker.Makes.orphans {ω κ : Type} {h : Host ω κ} {w : Worker ω} {s : WorkerState κ}
    {moves : List (Move ω κ)} (run : w.Makes h .initial moves s) {c : κ} {d : Delivery}
    {e : Envelope} (orphaned : s.phase = .orphaned c d e) : w.Orphans d e := by
  obtain ⟨_, dispatch, -, dispatches⟩ := run.dispatches rfl (congrArg Phase.held? orphaned)
  exact dispatches.orphan orphaned

namespace Memory

variable {σ : Type}

/-! ### What a step adds -/

/-- No record was added, and no group has gone back. -/
structure World.Quiet (world world' : World σ) : Prop where
  arrivals : world'.broker.arrivals = world.broker.arrivals
  reached : ∀ group topic, world.broker.reached group topic ≤ world'.broker.reached group topic

/-- No record went away, and no group has gone back. -/
structure World.Advances (world world' : World σ) : Prop where
  grows : world.broker.Grows world'.broker
  reached : ∀ group topic, world.broker.reached group topic ≤ world'.broker.reached group topic

theorem World.Quiet.refl (world : World σ) : world.Quiet world := ⟨rfl, fun _ _ => Nat.le_refl _⟩

theorem World.Quiet.advances {world world' : World σ} (quiet : world.Quiet world') :
    world.Advances world' := ⟨Broker.grows_of_arrivals_eq quiet.arrivals, quiet.reached⟩

theorem World.SameLogs.quiet {world world' : World σ} (same : world.SameLogs world') :
    world.Quiet world' := by
  refine ⟨same.arrivals, fun group topic => Nat.le_of_eq ?_⟩
  exact (Broker.reached_congr (Broker.committed?_congr same.offsets group topic)).symm

theorem World.Advances.refl (world : World σ) : world.Advances world := (Quiet.refl world).advances

theorem World.Advances.trans {world world' world'' : World σ} (first : world.Advances world')
    (second : world'.Advances world'') : world.Advances world'' :=
  ⟨first.grows.trans second.grows,
    fun group topic => Nat.le_trans (first.reached group topic) (second.reached group topic)⟩

/-- The worker publishes to the broker of its world, and its handlers publish nothing, whatever else
they do. -/
structure HandlesQuietly (w : Worker (World σ)) : Prop where
  sink : w.publisher.sink = World.sink
  handlers : ∀ a ∈ w.registry.accepted, ∀ e world,
    World.Quiet world (a.listener.handler.handle e world).2.1

/-- The records that a move added, with their topics. -/
def gain (m : Move (World σ) Consumer) : List (String × Record) :=
  m.left.broker.arrivals.drop m.found.broker.arrivals.length

/-- A record on the dead-letter topic is none on the retry topic. -/
theorem recordsOn_deadTopic (w : Worker (World σ)) (r : Record) :
    recordsOn w.failureTopics.retryTopic [(w.failureTopics.deadTopic, r)] = [] := by
  have apart : w.failureTopics.deadTopic ≠ w.failureTopics.retryTopic :=
    (FailureTopics.retryTopic_ne_deadTopic _).symm
  simp [recordsOn, apart]

/-- What a step adds: nothing, or the record of the event at hand. -/
inductive Gains (w : Worker (World σ)) (m : Move (World σ) Consumer) : Prop where
  | nothing (quiet : m.found.Quiet m.left)
  | escalated {c : Consumer} {d : Delivery} {r : Routed} {path : Escalation} {e : Envelope}
    (failing : m.before.phase = .failing c d r)
    (settling : m.after.phase = .settling c d (.escalated path))
    (planned : w.failureTopics.plan? r.event r.group r.topic = some (path, e))
    (append : m.left.broker = m.found.broker.append (w.failureTopics.topicOf path)
      ⟨d.keyText?, some e.payload⟩)
  | buried {c : Consumer} {d : Delivery} {e : Envelope}
    (orphaned : m.before.phase = .orphaned c d e)
    (settling : m.after.phase = .settling c d .orphaned)
    (append : m.left.broker = m.found.broker.append w.failureTopics.deadTopic
      ⟨d.keyText?, some e.payload⟩)

theorem gain_of_quiet {m : Move (World σ) Consumer} (quiet : m.found.Quiet m.left) :
    gain m = [] := by
  rw [gain, quiet.arrivals, List.drop_length]

theorem gain_of_append {m : Move (World σ) Consumer} {topic : String} {r : Record}
    (append : m.left.broker = m.found.broker.append topic r) : gain m = [(topic, r)] := by
  rw [gain, append]
  exact List.drop_left

theorem quiet_of_commit {world world' : World σ} {group topic : String} {offset : Int}
    (broker : world'.broker = world.broker.commit group topic offset) : world.Quiet world' := by
  refine ⟨?_, fun group' topic' => ?_⟩
  · rw [broker]
    rfl
  · rw [broker]
    exact Broker.reached_le_commit ..

namespace HandlesQuietly

variable {w : Worker (World σ)} {s s' : WorkerState Consumer} {world world' : World σ}
  {happened : List Occurrence}

theorem of_handle (quietly : HandlesQuietly w) {r : Routed} {ran : Nat}
    {l : Listener (Handler (World σ))} (next : (w.listenersFor r)[ran]? = some l) {e : Envelope}
    {result : Except Failure Unit} {log : List LogEntry}
    (answer : l.handler.handle e world = (result, world', log)) : world.Quiet world' := by
  obtain ⟨a, accepted, -, rfl⟩ := Registry.exists_of_mem_matching (List.mem_of_getElem? next)
  have quiet := quietly.handlers a accepted e world
  rw [answer] at quiet
  exact quiet

theorem append_of_produce (quietly : HandlesQuietly w) {record : Outgoing} {log : List LogEntry}
    (answer : w.publisher.sink.produce record world = (.ok (), world', log)) :
    world'.broker = world.broker.append record.topic ⟨record.key, some record.payload⟩ := by
  rw [quietly.sink] at answer
  rcases World.produce_cases answer with ⟨-, ⟨_, refused⟩, -⟩ | ⟨-, -, rfl⟩
  · cases refused
  · rfl

/-- A record that is refused changes nothing. -/
theorem eq_of_refused (quietly : HandlesQuietly w) {record : Outgoing} {error : BrokerError}
    {log : List LogEntry}
    (answer : w.publisher.sink.produce record world = (.error error, world', log)) :
    world' = world := by
  rw [quietly.sink] at answer
  rcases World.produce_cases answer with ⟨-, -, same⟩ | ⟨-, accepted, -⟩
  · exact same
  · cases accepted

theorem gains (quietly : HandlesQuietly w)
    (does : Does World.host w s world s' world' happened) :
    Gains w ⟨s, world, s', world', happened⟩ := by
  by_cases unfinished : s.phase.IsOpen
  · cases does <;> first
      | exact unfinished.elim
      | exact .nothing (.refl _)
      | skip
    case pos.accepted next answer => exact .nothing (quietly.of_handle next answer)
    case pos.failed next answer => exact .nothing (quietly.of_handle next answer)
    case pos.escalated planned answer =>
      exact .escalated rfl rfl planned (quietly.append_of_produce answer)
    case pos.notEscalated answer =>
      obtain rfl := quietly.eq_of_refused answer
      exact .nothing (.refl _)
    case pos.buried answer => exact .buried rfl rfl (quietly.append_of_produce answer)
    case pos.notBuried answer =>
      obtain rfl := quietly.eq_of_refused answer
      exact .nothing (.refl _)
  · rcases (works_of_does does).sameLogs_or_settled unfinished with
      same | ⟨c, d, outcome, -, broker⟩
    · exact .nothing same.quiet
    · exact .nothing (quiet_of_commit broker)

end HandlesQuietly

namespace Gains

variable {w : Worker (World σ)} {m : Move (World σ) Consumer}

theorem advances (gains : Gains w m) : m.found.Advances m.left := by
  have appended : ∀ {topic r}, m.left.broker = m.found.broker.append topic r →
      m.found.Advances m.left := by
    intro topic r append
    constructor
    · rw [append]
      exact Broker.grows_append ..
    · intro group topic'
      rw [append]
      exact Nat.le_refl _
  cases gains with
  | nothing quiet => exact quiet.advances
  | escalated _ _ _ append => exact appended append
  | buried _ _ append => exact appended append

theorem arrivals_eq (gains : Gains w m) :
    m.left.broker.arrivals = m.found.broker.arrivals ++ gain m := by
  obtain ⟨more, longer⟩ := gains.advances.grows
  rw [gain, ← longer, List.drop_left]

end Gains

/-- What may be added for a message: nothing, the record of its event where the event is moved on to,
or its record on the dead-letter topic. -/
inductive MayAdd (w : Worker (World σ)) (d : Delivery) : List (String × Record) → Prop where
  | nothing : MayAdd w d []
  | escalated {r : Routed} {path : Escalation} {e : Envelope} (routes : w.Routes d r)
    (planned : w.failureTopics.plan? r.event r.group r.topic = some (path, e)) :
    MayAdd w d [(w.failureTopics.topicOf path, ⟨d.keyText?, some e.payload⟩)]
  | buried {e : Envelope} (orphans : w.Orphans d e) :
    MayAdd w d [(w.failureTopics.deadTopic, ⟨d.keyText?, some e.payload⟩)]

/-- A step adds nothing, or it is the last one of a dispatch and adds what may be added for the message
at hand. -/
theorem Gains.mayAdd {w : Worker (World σ)} {m : Move (World σ) Consumer} (gains : Gains w m)
    {earlier : List (Move (World σ) Consumer)} (run : w.Makes World.host .initial earlier m.before) :
    gain m = [] ∨ ∃ c d outcome, m.before.phase.held? = some (c, d) ∧ m.before.phase.IsOpen ∧
      m.after.phase = .settling c d outcome ∧ MayAdd w d (gain m) := by
  cases gains with
  | nothing quiet => exact .inl (gain_of_quiet quiet)
  | @escalated c d r path e failing settling planned append =>
    refine .inr ⟨c, d, _, congrArg Phase.held? failing, ?_, settling, ?_⟩
    · rw [failing]
      trivial
    · rw [gain_of_append append]
      exact .escalated (run.routes failing) planned
  | @buried c d e orphaned settling append =>
    refine .inr ⟨c, d, _, congrArg Phase.held? orphaned, ?_, settling, ?_⟩
    · rw [orphaned]
      trivial
    · rw [gain_of_append append]
      exact .buried (run.orphans orphaned)

/-- A retry of the event at hand: a handler failed on a message that had been retried fewer times, and
the record holds the same event with one more failure counted. -/
structure IsRetry (w : Worker (World σ)) (life : List (Move (World σ) Consumer))
    (m : Move (World σ) Consumer) (record : Record) (d : Delivery) (r : Routed) (n : UInt32) :
    Prop where
  failing : ∃ c, m.before.phase = .failing c d r
  routes : w.Routes d r
  fails : ∃ earlier ∈ handling d life, Fails earlier.happened
  key : record.key = d.keyText?
  reads : ∃ bs, record.payload = some bs ∧
    Envelope.read bs = .ok (r.event.retried r.group r.topic)
  counted : (r.event.retried r.group r.topic).retries = some n
  positive : 1 ≤ n
  bounded : n ≤ maxFailures
  further : r.event.retryCount < n

/-- A worker has failed on the event that it has to move on. -/
theorem exists_fails_of_failing {w : Worker (World σ)} {s : WorkerState Consumer}
    {moves : List (Move (World σ) Consumer)} (run : w.Makes World.host .initial moves s)
    {c : Consumer} {d : Delivery} {r : Routed} (failing : s.phase = .failing c d r) :
    ∃ m ∈ handling d moves, Fails m.happened := by
  have held : s.phase.held? = some (c, d) := congrArg Phase.held? failing
  cases run.handles rfl (List.Nodup.of_map _ (fetched_nodup run)) d with
  | unfetched none => exact absurd (run.mem_fetched_of_held rfl held) none
  | present _ dispatches =>
    apply dispatches.hasFailed_iff.mp
    rw [failing]
    trivial
  | committed _ left => exact absurd held (left c)

/-- What a step adds to the retry topic is a retry of the event at hand. -/
theorem Gains.isRetry {w : Worker (World σ)} {m : Move (World σ) Consumer} (gains : Gains w m)
    {earlier later life : List (Move (World σ) Consumer)}
    (run : w.Makes World.host .initial earlier m.before) (split : life = earlier ++ m :: later)
    {record : Record} (gained : record ∈ recordsOn w.failureTopics.retryTopic (gain m)) :
    ∃ d r n, IsRetry w life m record d r n := by
  cases gains with
  | nothing quiet =>
    rw [gain_of_quiet quiet] at gained
    cases gained
  | buried _ _ append =>
    rw [gain_of_append append, recordsOn_deadTopic] at gained
    cases gained
  | @escalated c d r path e failing _ planned append =>
    rw [gain_of_append append] at gained
    -- an event that is given up goes to the dead-letter topic and is no gain of the retry topic
    rcases FailureTopics.plan?_cases planned with ⟨rfl, remaining, rfl⟩ | ⟨rfl, -⟩
    · have routes := run.routes failing
      obtain ⟨bs, -, reads, -⟩ := id routes
      have formed := FailureTopics.wellFormed_of_plan? (Envelope.wellFormed_of_read reads) planned
      obtain ⟨positive, bounded⟩ := Envelope.succ_retryCount_bounds remaining
      obtain ⟨earlier', handled, fails⟩ := exists_fails_of_failing run failing
      have handled' : earlier' ∈ handling d life := by
        obtain ⟨made, held⟩ := mem_handling.mp handled
        exact mem_handling.mpr ⟨split ▸ List.mem_append_left _ made, held⟩
      have same : record = ⟨d.keyText?, some (r.event.retried r.group r.topic).payload⟩ := by
        simpa [recordsOn, FailureTopics.topicOf] using gained
      subst same
      exact ⟨d, r, r.event.retryCount + 1, ⟨c, failing⟩, routes, ⟨earlier', handled', fails⟩, rfl,
        ⟨_, rfl, Envelope.read_payload formed⟩, rfl, positive, bounded,
        Envelope.retryCount_lt_succ remaining⟩
    · change record ∈ recordsOn _ [(w.failureTopics.deadTopic, _)] at gained
      rw [recordsOn_deadTopic] at gained
      cases gained

/-! ### What one worker spends -/

/-- The budgets of records. -/
def budgets (records : List Record) : Nat := (records.map fun r => retryBudget r.payload).sum

/-- What records on the retry topic cost: their budgets, and one for each of them. -/
def cost (records : List Record) : Nat := (records.map fun r => retryBudget r.payload + 1).sum

/-- The budgets of messages. -/
def funds (ds : List Delivery) : Nat := (ds.map fun d => retryBudget d.payload).sum

@[simp] theorem cost_append (first second : List Record) :
    cost (first ++ second) = cost first + cost second := by
  simp [cost]

@[simp] theorem funds_append (first second : List Delivery) :
    funds (first ++ second) = funds first + funds second := by
  simp [funds]

theorem cost_recordsOn_flatMap {α : Type} (topic : String) (l : List α)
    (f : α → List (String × Record)) :
    cost (recordsOn topic (l.flatMap f)) = (l.map fun a => cost (recordsOn topic (f a))).sum := by
  induction l with
  | nil => rfl
  | cons a l ih =>
    rw [List.flatMap_cons, recordsOn_append, cost_append, ih, List.map_cons, List.sum_cons]

theorem funds_flatMap {α : Type} (l : List α) (f : α → List Delivery) :
    funds (l.flatMap f) = (l.map fun a => funds (f a)).sum := by
  induction l with
  | nil => rfl
  | cons a l ih => rw [List.flatMap_cons, funds_append, ih, List.map_cons, List.sum_cons]

theorem cost_eq_of_perm {records records' : List Record} (perm : records.Perm records') :
    cost records = cost records' := (perm.map _).sum_eq

theorem funds_eq_of_perm {ds ds' : List Delivery} (perm : ds.Perm ds') : funds ds = funds ds' :=
  (perm.map _).sum_eq

theorem cost_eq (records : List Record) : cost records = budgets records + records.length := by
  rw [cost, List.sum_map_add, budgets]
  simp

@[simp] theorem budgets_append (first second : List Record) :
    budgets (first ++ second) = budgets first + budgets second := by
  simp [budgets]

theorem budgets_le (records : List Record) :
    budgets records ≤ maxFailures.toNat * records.length := by
  induction records with
  | nil => exact Nat.zero_le _
  | cons r records ih =>
    have first := retryBudget_le r.payload
    rw [budgets, List.map_cons, List.sum_cons, ← budgets, List.length_cons, Nat.mul_succ]
    omega

theorem budgets_drop_le (records : List Record) (n : Nat) :
    budgets (records.drop n) ≤ budgets records := by
  have whole := congrArg budgets (List.take_append_drop n records)
  rw [budgets_append] at whole
  omega

theorem funds_messages (b : Broker) (topic : String) (offset : Nat) :
    funds (b.messages topic offset) = budgets ((b.records topic).drop offset) := by
  rw [funds, Broker.map_messages (fun r => retryBudget r.payload) (fun _ _ => rfl), budgets]

/-- What may be added to the retry topic for a message costs no more than the message has. -/
theorem MayAdd.cost_le {w : Worker (World σ)} {d : Delivery} {added : List (String × Record)}
    (adds : MayAdd w d added) :
    cost (recordsOn w.failureTopics.retryTopic added) ≤ retryBudget d.payload := by
  cases adds with
  | nothing => exact Nat.zero_le _
  | buried =>
    rw [recordsOn_deadTopic]
    exact Nat.zero_le _
  | @escalated r path e routes planned =>
    rcases FailureTopics.plan?_cases planned with ⟨rfl, remaining, rfl⟩ | ⟨rfl, -⟩
    · obtain ⟨bs, -, reads, -⟩ := id routes
      have reads' := Envelope.read_payload
        (FailureTopics.wellFormed_of_plan? (Envelope.wellFormed_of_read reads) planned)
      have spent := Envelope.budget_retried remaining r.group r.topic
      rw [routes.retryBudget_eq]
      simp [recordsOn, FailureTopics.topicOf, cost, retryBudget_of_read reads', spent]
    · change cost (recordsOn _ [(w.failureTopics.deadTopic, _)]) ≤ _
      rw [recordsOn_deadTopic]
      exact Nat.zero_le _

theorem retryBudget_lt_cost {records : List Record} {r : Record} (mem : r ∈ records) :
    retryBudget r.payload < cost records :=
  List.single_le_sum (fun _ _ => Nat.zero_le _) _ (List.mem_map_of_mem mem)

section Life

variable {w : Worker (World σ)} {s : WorkerState Consumer} {moves : List (Move (World σ) Consumer)}

/-- A step spends what the message at hand has. -/
theorem HandlesQuietly.spends (quietly : HandlesQuietly w)
    (run : w.Makes World.host .initial moves s) {s' : WorkerState Consumer} {world world' : World σ}
    {happened : List Occurrence} (does : Does World.host w s world s' world' happened) :
    cost (recordsOn w.failureTopics.retryTopic (gain ⟨s, world, s', world', happened⟩)) +
        funds s'.phase.pending?.toList ≤
      funds s.phase.pending?.toList + funds s'.phase.fetched?.toList := by
  have parts := congrArg funds does.pending
  rw [funds_append, funds_append] at parts
  rcases (quietly.gains does).mayAdd run with nothing |
    ⟨c, d, outcome, held, unfinished, settling, adds⟩
  · rw [nothing]
    change 0 + _ ≤ _
    omega
  · have pending : s.phase.pending? = some d :=
      Phase.pending?_eq_some_iff.mpr ⟨unfinished, c, held⟩
    have none : s'.phase.pending? = none := by
      dsimp only at settling
      rw [settling]
      rfl
    -- the message is no longer pending, so all that it has can be spent
    have price := adds.cost_le
    rw [none, pending]
    simp [funds]
    omega

/-- What a worker adds to the retry topic costs no more than what it fetched has. -/
theorem HandlesQuietly.cost_le (quietly : HandlesQuietly w)
    (run : w.Makes World.host .initial moves s) :
    cost (recordsOn w.failureTopics.retryTopic (moves.flatMap gain)) +
        funds s.phase.pending?.toList ≤ funds (fetched moves) := by
  induction run with
  | start => exact Nat.le_refl _
  | step earlier made ih =>
    have spends := quietly.spends earlier (does_step made)
    rw [List.flatMap_append, List.flatMap_singleton, recordsOn_append, cost_append, fetched_snoc,
      funds_append]
    dsimp only
    omega

end Life

/-! ### What all workers have to read -/

/-- How many records of some topics a group has still to read. -/
def Broker.unread (b : Broker) (group : String) (topics : List String) : Nat :=
  (topics.map fun topic => b.nextOffset topic - b.reached group topic).sum

/-- How many records the groups of a plan have still to read on their topics, and its retry group on
the retry topic. -/
def unread (p : Plan (World σ)) (b : Broker) : Nat :=
  (p.registry.groups.map fun group => b.unread group (p.registry.topicsFor group)).sum +
    b.unread p.publisher.failureTopics.retryGroup [p.publisher.failureTopics.retryTopic]

theorem length_agenda (w : Worker (World σ)) (start b : Broker) :
    (agenda w start b).length =
      ((Names.ofList w.topics).map fun topic =>
        b.nextOffset topic - start.reached w.group topic).sum := by
  simp only [agenda, List.length_flatMap, Broker.length_messages]

theorem funds_le (ds : List Delivery) : funds ds ≤ maxFailures.toNat * ds.length := by
  induction ds with
  | nil => exact Nat.zero_le _
  | cons d ds ih =>
    have first := retryBudget_le d.payload
    rw [funds, List.map_cons, List.sum_cons, ← funds, List.length_cons, Nat.mul_succ]
    omega

theorem funds_le_of_subperm {ds ds' : List Delivery} (part : ds.Subperm ds') :
    funds ds ≤ funds ds' := by
  obtain ⟨ds'', same, sublist⟩ := part
  calc
    funds ds = funds ds'' := ((same.map _).sum_eq).symm
    _ ≤ funds ds' := (sublist.map _).sum_le_sum fun _ _ => Nat.zero_le _

theorem subperm_flatMap_range {α β : Type} {l : List α} {f : Nat → List β} {g : α → List β}
    (each : ∀ i a, l[i]? = some a → (f i).Subperm (g a)) :
    ((List.range l.length).flatMap f).Subperm (l.flatMap g) := by
  induction l generalizing f with
  | nil => exact List.Subperm.refl _
  | cons a l ih =>
    rw [List.length_cons, List.range_succ_eq_map, List.flatMap_cons, List.flatMap_map,
      List.flatMap_cons]
    exact (each 0 a rfl).append (ih fun i b at' => each (i + 1) b at')

section Run

variable {p : Plan (World σ)} {workers : List (Worker (World σ))} {world : World σ}
  {moves : List (Nat × Move (World σ) Consumer)} {line : Pipeline (World σ) Consumer}

theorem handlesQuietly_of_workers (accepted : p.workers = .ok workers)
    (sink : p.publisher.sink = World.sink)
    (handlers : ∀ a ∈ p.registry.accepted, ∀ e world,
      World.Quiet world (a.listener.handler.handle e world).2.1) :
    ∀ w ∈ workers, HandlesQuietly w := by
  intro w worker
  obtain ⟨registry, publisher⟩ := Plan.same_of_workers accepted worker
  exact ⟨publisher ▸ sink, registry ▸ handlers⟩

theorem advances_of_runs (quietly : ∀ w ∈ workers, HandlesQuietly w)
    (run : Pipeline.Runs World.host World.Quiet (.start workers world) moves line) :
    world.Advances line.world ∧ ∀ made ∈ moves, world.Advances made.2.found ∧
      made.2.found.Advances made.2.left ∧ made.2.left.Advances line.world := by
  apply run.related World.Advances.refl World.Advances.trans
  · intro w worker _ s _ found s' left happened made
    exact ((quietly w worker).gains (does_step made)).advances
  · exact fun _ _ quiet => quiet.advances

/-- All that is in the logs was there at the start or was added by a move. -/
theorem arrivals_of_runs (quietly : ∀ w ∈ workers, HandlesQuietly w)
    (run : Pipeline.Runs World.host World.Quiet (.start workers world) moves line) :
    line.world.broker.arrivals =
      world.broker.arrivals ++ (moves.map Prod.snd).flatMap gain := by
  induction run with
  | start => exact (List.append_nil _).symm
  | @moved moves line i w s s' world' happened earlier chosen made ih =>
    have worker := List.mem_of_getElem? (earlier.worker_of_mem chosen)
    have gains := (quietly w worker).gains (does_step made)
    rw [List.map_append, List.flatMap_append, ← List.append_assoc, ← ih]
    simpa using gains.arrivals_eq
  | changed _ change ih => exact change.arrivals.trans ih

theorem records_of_runs (quietly : ∀ w ∈ workers, HandlesQuietly w)
    (run : Pipeline.Runs World.host World.Quiet (.start workers world) moves line)
    (topic : String) :
    line.world.broker.records topic = world.broker.records topic ++
      recordsOn topic ((moves.map Prod.snd).flatMap gain) := by
  have records : ∀ b : Broker, b.records topic = recordsOn topic b.arrivals := fun _ => rfl
  rw [records, records, arrivals_of_runs quietly run, recordsOn_append]

theorem failureTopics_of_workers (accepted : p.workers = .ok workers) {w : Worker (World σ)}
    (worker : w ∈ workers) : w.failureTopics = p.publisher.failureTopics :=
  congrArg Publisher.failureTopics (Plan.same_of_workers accepted worker).2

/-- The workers add records to the retry path only. -/
theorem mem_gain_of_runs (accepted : p.workers = .ok workers)
    (quietly : ∀ w ∈ workers, HandlesQuietly w)
    (run : Pipeline.Runs World.host World.Quiet (.start workers world) moves line)
    {m : Move (World σ) Consumer} (made : m ∈ moves.map Prod.snd) {arrival : String × Record}
    (gained : arrival ∈ gain m) :
    p.publisher.failureTopics.isReservedTopic arrival.1 = true := by
  obtain ⟨⟨i, m⟩, mem, rfl⟩ := List.mem_map.mp made
  obtain ⟨w, worker, earlier, -, -, -, step⟩ := run.made mem
  have member := List.mem_of_getElem? worker
  have names := failureTopics_of_workers accepted member
  cases (quietly w member).gains (does_step step) with
  | nothing quiet =>
    rw [gain_of_quiet quiet] at gained
    cases gained
  | @escalated _ _ _ path _ _ _ _ append =>
    rw [gain_of_append append] at gained
    rw [List.mem_singleton.mp gained, names]
    cases path <;> simp [FailureTopics.isReservedTopic, FailureTopics.topicOf]
  | buried _ _ append =>
    rw [gain_of_append append] at gained
    rw [List.mem_singleton.mp gained, names]
    simp [FailureTopics.isReservedTopic]

/-- A topic off the retry path keeps its log. -/
theorem records_eq_of_runs (accepted : p.workers = .ok workers)
    (quietly : ∀ w ∈ workers, HandlesQuietly w)
    (run : Pipeline.Runs World.host World.Quiet (.start workers world) moves line)
    {topic : String} (free : p.publisher.failureTopics.isReservedTopic topic = false) :
    line.world.broker.records topic = world.broker.records topic := by
  have nothing : recordsOn topic ((moves.map Prod.snd).flatMap gain) = [] := by
    rw [recordsOn, List.map_eq_nil_iff, List.filter_eq_nil_iff]
    intro arrival mem here
    obtain ⟨m, made, gained⟩ := List.mem_flatMap.mp mem
    have reserved := mem_gain_of_runs accepted quietly run made gained
    rw [beq_iff_eq.mp here, free] at reserved
    cases reserved
  rw [records_of_runs quietly run, nothing, List.append_nil]

/-- All that the workers fetch is on their agendas. -/
theorem fetched_subperm_of_runs (quietly : ∀ w ∈ workers, HandlesQuietly w)
    (run : Pipeline.Runs World.host World.Quiet (.start workers world) moves line) :
    (fetched (moves.map Prod.snd)).Subperm
      (workers.flatMap fun w => agenda w world.broker line.world.broker) := by
  obtain ⟨-, advances⟩ := advances_of_runs quietly run
  rw [fetched_eq_flatMap]
  refine (perm_flatMap_own run.lt_of_mem _).subperm.trans (subperm_flatMap_range ?_)
  intro i w worker
  obtain ⟨s, -, makes⟩ := run.makes worker
  rw [← fetched_eq_flatMap]
  apply fetched_subperm_agenda makes
  · intro m made topic
    exact (advances (i, m) (mem_of_mem_own made)).1.reached _ _
  · intro m made
    obtain ⟨-, onward, later⟩ := advances (i, m) (mem_of_mem_own made)
    exact (onward.trans later).grows

/-- What the workers add to the retry topic costs no more than what they fetch has. -/
theorem cost_le_of_runs (accepted : p.workers = .ok workers)
    (quietly : ∀ w ∈ workers, HandlesQuietly w)
    (run : Pipeline.Runs World.host World.Quiet (.start workers world) moves line) :
    cost (recordsOn p.publisher.failureTopics.retryTopic ((moves.map Prod.snd).flatMap gain)) ≤
      funds (fetched (moves.map Prod.snd)) := by
  rw [cost_eq_of_perm (recordsOn_perm (perm_flatMap_own run.lt_of_mem gain) _),
    fetched_eq_flatMap, funds_eq_of_perm (perm_flatMap_own run.lt_of_mem _), cost_recordsOn_flatMap,
    funds_flatMap]
  apply List.sum_le_sum
  intro i mem
  have worker := List.getElem?_eq_getElem (List.mem_range.mp mem)
  have member := List.mem_of_getElem? worker
  obtain ⟨s, -, makes⟩ := run.makes worker
  have spends := (quietly _ member).cost_le makes
  rw [failureTopics_of_workers accepted member, fetched_eq_flatMap] at spends
  omega

/-- What the worker of a group has to read stays what it was at the start. -/
theorem agenda_business (accepted : p.workers = .ok workers)
    (quietly : ∀ w ∈ workers, HandlesQuietly w)
    (run : Pipeline.Runs World.host World.Quiet (.start workers world) moves line) (group : String) :
    let w := Worker.business group p.brokers p.registry p.publisher p.settings p.timer
    agenda w world.broker line.world.broker = agenda w world.broker world.broker := by
  intro w
  apply List.flatMap_congr
  intro topic subscribed
  have free := Plan.free_of_workers accepted (Names.mem_ofList.mp subscribed)
  exact Broker.messages_congr (records_eq_of_runs accepted quietly run free.2) _

theorem length_agenda_business (p : Plan (World σ)) (start : Broker) (group : String) :
    (agenda (.business group p.brokers p.registry p.publisher p.settings p.timer) start start).length =
      start.unread group (p.registry.topicsFor group) := by
  have increasing : Names.ofList (p.registry.topicsFor group) = p.registry.topicsFor group :=
    Names.ofList_of_pairwise (Names.pairwise_ofList _)
  rw [length_agenda, Broker.unread]
  change ((Names.ofList (p.registry.topicsFor group)).map _).sum = _
  rw [increasing]
  rfl

/-- The agenda of the retry worker grows by what is added to the retry topic. -/
theorem agenda_retry_le (p : Plan (World σ)) {start b : Broker} {added : List Record}
    (records : b.records p.publisher.failureTopics.retryTopic =
      start.records p.publisher.failureTopics.retryTopic ++ added) :
    let f := p.publisher.failureTopics
    let ahead := agenda (.retry p.brokers p.registry p.publisher p.settings p.timer) start b
    ahead.length ≤ start.unread f.retryGroup [f.retryTopic] + added.length ∧
      funds ahead ≤
        maxFailures.toNat * start.unread f.retryGroup [f.retryTopic] + budgets added := by
  intro f ahead
  change b.records f.retryTopic = start.records f.retryTopic ++ added at records
  have messages : ahead = b.messages f.retryTopic (start.reached f.retryGroup f.retryTopic) :=
    List.append_nil _
  have unread : start.unread f.retryGroup [f.retryTopic] =
      (start.records f.retryTopic).length - start.reached f.retryGroup f.retryTopic :=
    Nat.add_zero _
  constructor
  · rw [messages, Broker.length_messages, Broker.nextOffset, records, unread, List.length_append]
    omega
  · have old := budgets_le ((start.records f.retryTopic).drop
      (start.reached f.retryGroup f.retryTopic))
    have new := budgets_drop_le added (start.reached f.retryGroup f.retryTopic -
      (start.records f.retryTopic).length)
    rw [List.length_drop] at old
    rw [messages, funds_messages, records, List.drop_append, budgets_append, unread]
    exact Nat.add_le_add old new

/-- What the workers fetch and what they add to the retry topic is bounded by what was unread at the
start. -/
theorem fetched_le_of_runs (accepted : p.workers = .ok workers)
    (quietly : ∀ w ∈ workers, HandlesQuietly w)
    (run : Pipeline.Runs World.host World.Quiet (.start workers world) moves line) :
    let added := recordsOn p.publisher.failureTopics.retryTopic
      ((moves.map Prod.snd).flatMap gain)
    added.length ≤ maxFailures.toNat * unread p world.broker ∧
      (fetched (moves.map Prod.snd)).length ≤ (maxFailures.toNat + 1) * unread p world.broker := by
  intro added
  have three : maxFailures.toNat = 3 := rfl
  have part := fetched_subperm_of_runs quietly run
  rw [Plan.flatMap_workers accepted] at part
  have count := part.length_le
  have value := funds_le_of_subperm part
  rw [List.length_append] at count
  rw [funds_append] at value
  have spends : cost added ≤ funds (fetched (moves.map Prod.snd)) :=
    cost_le_of_runs accepted quietly run
  have records : _ = _ ++ added := records_of_runs quietly run _
  obtain ⟨retryCount, retryValue⟩ := agenda_retry_le p records
  have business : (p.registry.groups.flatMap fun group =>
      agenda (.business group p.brokers p.registry p.publisher p.settings p.timer) world.broker
        line.world.broker).length =
      (p.registry.groups.map fun group =>
        world.broker.unread group (p.registry.topicsFor group)).sum := by
    rw [List.length_flatMap]
    congr 1
    apply List.map_congr_left
    intro group registered
    rw [agenda_business accepted quietly run group, length_agenda_business]
  have poor := funds_le (p.registry.groups.flatMap fun group =>
    agenda (.business group p.brokers p.registry p.publisher p.settings p.timer) world.broker
      line.world.broker)
  rw [business] at count poor
  rw [cost_eq] at spends
  rw [three] at poor retryValue
  rw [unread, three]
  omega

end Run

/-- Let a pipeline run whose handlers publish nothing but may do anything else, its workers taking
turns in any way and nobody else adding records. Whatever the logs hold and whatever was committed at
the start, each record that a worker adds to the retry topic is a retry: its count of failures is
between 1 and `maxFailures` and greater than that of the message whose failure it comes from. There
are at most `maxFailures` such records, and at most `maxFailures + 1` dispatches, for each record that
was unread at the start. No message of the dead-letter topic is fetched. -/
theorem retries_die_out {p : Plan (World σ)} {workers : List (Worker (World σ))}
    (accepted : p.workers = .ok workers) (sink : p.publisher.sink = World.sink)
    (handlers : ∀ a ∈ p.registry.accepted, ∀ e world,
      World.Quiet world (a.listener.handler.handle e world).2.1)
    {world : World σ} {moves : List (Nat × Move (World σ) Consumer)}
    {line : Pipeline (World σ) Consumer}
    (run : Pipeline.Runs World.host World.Quiet (.start workers world) moves line) :
    let f := p.publisher.failureTopics
    let all := moves.map Prod.snd
    (∀ i m, (i, m) ∈ moves → ∀ record ∈ recordsOn f.retryTopic (gain m),
      ∃ w d r n, workers[i]? = some w ∧ IsRetry w (own i moves) m record d r n) ∧
    (∃ added, line.world.broker.records f.retryTopic =
        world.broker.records f.retryTopic ++ added ∧ added = recordsOn f.retryTopic (all.flatMap gain) ∧
      added.length ≤ maxFailures.toNat * unread p world.broker) ∧
    (fetched all).length ≤ (maxFailures.toNat + 1) * unread p world.broker ∧
    ∀ d ∈ fetched all, d.topic ≠ f.deadTopic := by
  intro f all
  have quietly := handlesQuietly_of_workers accepted sink handlers
  obtain ⟨fewAdded, fewFetched⟩ := fetched_le_of_runs accepted quietly run
  refine ⟨?_, ⟨_, records_of_runs quietly run _, rfl, fewAdded⟩, fewFetched, ?_⟩
  · intro i m made record gained
    obtain ⟨w, worker, earlier, later, split, makes, step⟩ := run.made made
    have member := List.mem_of_getElem? worker
    have names : w.failureTopics = f := failureTopics_of_workers accepted member
    rw [← names] at gained
    obtain ⟨d, r, n, retry⟩ :=
      ((quietly w member).gains (does_step step)).isRetry makes split gained
    exact ⟨w, d, r, n, worker, retry⟩
  · intro d fetches dead
    have mem := (fetched_subperm_of_runs quietly run).subset fetches
    obtain ⟨w, worker, todo⟩ := List.mem_flatMap.mp mem
    have subscribed := (mem_agenda.mp todo).1
    rcases (Plan.mem_workers accepted).mp worker with ⟨group, registered, rfl⟩ | rfl
    · have free := (Plan.free_of_workers accepted subscribed).2
      rw [dead] at free
      simp [FailureTopics.isReservedTopic, f] at free
    · have topic : d.topic = f.retryTopic := List.mem_singleton.mp subscribed
      exact FailureTopics.retryTopic_ne_deadTopic _ (topic.symm.trans dead)

/-- The pipeline of the sample has one record to read and makes as many dispatches of it as there can
be. -/
theorem sample_retries_die_out : unread Sample.plan Sample.world.broker = 1 ∧
    4 ≤ (fetched ((Sample.line.trace World.host Sample.schedule).map Prod.snd)).length ∧
    (fetched ((Sample.line.trace World.host Sample.schedule).map Prod.snd)).length ≤ 4 := by
  have begun : Pipeline.Runs World.host World.Quiet (.start Sample.workers Sample.world) []
      Sample.line := .start
  obtain ⟨run, -⟩ := begun.exec Sample.schedule
  have handlers : ∀ a ∈ Sample.plan.registry.accepted, ∀ e world,
      World.Quiet world (a.listener.handler.handle e world).2.1 := by
    intro a accepted e world
    cases List.mem_singleton.mp accepted
    exact .refl _
  have single : unread Sample.plan Sample.world.broker = 1 := by decide +kernel
  obtain ⟨-, -, bounded, -⟩ :=
    @retries_die_out _ Sample.plan Sample.workers rfl rfl handlers _ _ _ run
  rw [single] at bounded
  exact ⟨single, by decide +kernel, bounded⟩

end Memory

end EventPipeline
