import EventPipeline.Proofs.Duration
import EventPipeline.Proofs.Memory.Confluence
import EventPipeline.Proofs.Memory.Survival

/-! # Groups do not disturb each other

All groups share the retry topic and its worker, but every record there says in which group its event
failed first. The retry worker asks the listeners of that group only, and what it adds for a record is
of the same group again. So what becomes of the events of one group, down to their last retry, does not
depend on which other groups there are, what their handlers do and whether their workers survive.
-/

namespace EventPipeline

open Worker

/-! ### Where events come from -/

/-- The group in which the event of a payload failed first, if the event says so. -/
def originGroup? (payload : Option Octets) : Option String :=
  match payload with
  | none => none
  | some bs =>
    match Envelope.read bs with
    | .ok e => e.originGroup
    | .error _ => none

/-- The payload holds no event that says where it came from. -/
def IsFresh (payload : Option Octets) : Prop :=
  ∀ bs e, payload = some bs → Envelope.read bs = .ok e → e.originGroup = none ∧ e.originTopic = none

theorem originGroup?_of_read {bs : Octets} {e : Envelope} (reads : Envelope.read bs = .ok e) :
    originGroup? (some bs) = e.originGroup := by
  rw [originGroup?, reads]

theorem IsFresh.originGroup?_eq {payload : Option Octets} (fresh : IsFresh payload) :
    originGroup? payload = none := by
  unfold originGroup?
  split
  · rfl
  · next bs =>
    split
    · next e reads => exact (fresh bs e rfl reads).1
    · rfl

/-- What the retry worker asks listeners about has failed in their group. -/
theorem Worker.Routes.originGroup_of_isRetry {ω : Type} {w : Worker ω} {d : Delivery} {r : Routed}
    (routes : w.Routes d r) (retry : w.isRetry = true) : r.event.originGroup = some r.group := by
  obtain ⟨_, _, _, route⟩ := routes
  unfold route? Envelope.origin? at route
  cases group : r.event.originGroup <;> cases topic : r.event.originTopic <;>
    simp [group, topic, retry] at route ⊢
  exact route.1

namespace Memory

variable {σ : Type}

/-- Whether a record holds an event that failed in this group first. -/
def Record.isOf (group : String) (r : Record) : Bool := originGroup? r.payload == some group

/-- The arrivals whose events failed in this group first. -/
def arrivalsOf (group : String) (arrivals : List (String × Record)) : List (String × Record) :=
  arrivals.filter fun arrival => arrival.2.isOf group

theorem arrivalsOf_append (group : String) (first second : List (String × Record)) :
    arrivalsOf group (first ++ second) = arrivalsOf group first ++ arrivalsOf group second :=
  List.filter_append ..

theorem arrivalsOf_flatMap {α : Type} (group : String) (l : List α)
    (f : α → List (String × Record)) :
    arrivalsOf group (l.flatMap f) = l.flatMap fun a => arrivalsOf group (f a) :=
  List.filter_flatMap

theorem arrivalsOf_eq_nil {group : String} {arrivals : List (String × Record)}
    (none : ∀ a ∈ arrivals, originGroup? a.2.payload ≠ some group) :
    arrivalsOf group arrivals = [] := by
  rw [arrivalsOf, List.filter_eq_nil_iff]
  intro a mem isOf
  exact none a mem (beq_iff_eq.mp isOf)

theorem recordsOn_arrivalsOf (topic group : String) (arrivals : List (String × Record)) :
    recordsOn topic (arrivalsOf group arrivals) =
      (recordsOn topic arrivals).filter (Record.isOf group) := by
  rw [recordsOn, arrivalsOf, List.filter_comm, recordsOn, List.filter_map]
  rfl

namespace MayAdd

variable {w : Worker (World σ)} {d : Delivery} {added : List (String × Record)}

/-- What the retry worker adds for a message is of the same group as the message. -/
theorem originGroup?_of_retry (adds : MayAdd w d added) (retry : w.isRetry = true) :
    ∀ a ∈ added, originGroup? a.2.payload = originGroup? d.payload := by
  cases adds with
  | nothing => exact fun _ => nofun
  | @escalated r path e routes planned =>
    intro a mem
    rw [List.mem_singleton.mp mem]
    have ours := routes.originGroup_of_isRetry retry
    obtain ⟨bs, present, reads, -⟩ := routes
    have formed := FailureTopics.wellFormed_of_plan? (Envelope.wellFormed_of_read reads) planned
    rw [d.payload_of_content? present, originGroup?_of_read reads,
      originGroup?_of_read (Envelope.read_payload formed)]
    rcases FailureTopics.plan?_cases planned with ⟨-, -, rfl⟩ | ⟨-, -, rfl⟩
    · rw [Envelope.retried, ours]
      rfl
    · rfl
  | @buried e orphans =>
    intro a mem
    rw [List.mem_singleton.mp mem]
    obtain ⟨bs, present, reads, -⟩ := orphans
    rw [d.payload_of_content? present, originGroup?_of_read reads,
      originGroup?_of_read (Envelope.read_payload (Envelope.wellFormed_of_read reads))]

/-- What another worker adds for a message without an origin is of its own group, or of none. -/
theorem originGroup?_of_business (adds : MayAdd w d added) (business : w.isRetry = false)
    (fresh : IsFresh d.payload) :
    ∀ a ∈ added, originGroup? a.2.payload = none ∨ originGroup? a.2.payload = some w.group := by
  cases adds with
  | nothing => exact fun _ => nofun
  | @escalated r path e routes planned =>
    intro a mem
    rw [List.mem_singleton.mp mem]
    obtain ⟨bs, present, reads, route⟩ := routes
    obtain ⟨noGroup, noTopic⟩ := fresh bs _ (d.payload_of_content? present) reads
    have formed := FailureTopics.wellFormed_of_plan? (Envelope.wellFormed_of_read reads) planned
    rw [originGroup?_of_read (Envelope.read_payload formed)]
    rcases FailureTopics.plan?_cases planned with ⟨-, -, rfl⟩ | ⟨-, -, rfl⟩
    · right
      simp only [route?, Envelope.origin?, noGroup, business] at route
      have ours : w.group = r.group := congrArg Prod.fst (Option.some.inj route)
      rw [Envelope.retried, noGroup, ours]
      rfl
    · exact .inl noGroup
  | @buried e orphans =>
    intro a mem
    rw [List.mem_singleton.mp mem]
    obtain ⟨bs, present, reads, -⟩ := orphans
    left
    rw [originGroup?_of_read (Envelope.read_payload (Envelope.wellFormed_of_read reads))]
    exact (fresh bs e (d.payload_of_content? present) reads).1

end MayAdd

theorem filter_flatMap_of_same {α β : Type} {f : α → List β} {p : α → Bool} {q : β → Bool}
    (same : ∀ a, ∀ b ∈ f a, q b = p a) (l : List α) :
    (l.flatMap f).filter q = (l.filter p).flatMap f := by
  induction l with
  | nil => rfl
  | cons a l ih =>
    rw [List.flatMap_cons, List.filter_append, ih]
    cases keep : p a with
    | true =>
      have all : (f a).filter q = f a := by
        rw [List.filter_eq_self]
        intro b mem
        rw [same a b mem, keep]
      rw [List.filter_cons_of_pos keep, List.flatMap_cons, all]
    | false =>
      have nothing : (f a).filter q = [] := by
        rw [List.filter_eq_nil_iff]
        intro b mem
        rw [same a b mem, keep]
        exact Bool.false_ne_true
      rw [List.filter_cons_of_neg (by rw [keep]; exact Bool.false_ne_true), nothing, List.nil_append]

/-! ### One pipeline -/

/-- The workers of this plan start in this world with nothing to stop the workers of this group and of
the retry topic. Handlers change neither the broker nor the shutdown signal and succeed as the rules
say, and no event that is there to read says where it came from. -/
structure Orderly (rules : Rules σ) (p : Plan (World σ)) (workers : List (Worker (World σ)))
    (group : String) (world : World σ) : Prop where
  accepted : p.workers = .ok workers
  sink : p.publisher.sink = World.sink
  handlers : ∀ a ∈ p.registry.accepted, ∀ e world,
    World.Steady world (a.listener.handler.handle e world).2.1
  decided : ∀ a ∈ p.registry.accepted, ∀ e world,
    (a.listener.handler.handle e world).1.isOk = rules.succeeds a.listener.handler e
  refusing : world.broker.refusing = rules.refusing
  ours : world.Undisturbed group
  retries : world.Undisturbed p.publisher.failureTopics.retryGroup
  fresh : ∀ w ∈ workers, ∀ topic ∈ w.topics, ∀ offset r,
    world.broker.reached w.group topic ≤ offset → world.broker.Holds topic offset r →
      IsFresh r.payload

/-- In this run nobody but the workers changes the broker or triggers shutdown, and at its end no worker
that has not ended has a record that is unread or not committed. -/
structure Exhausts (workers : List (Worker (World σ))) (world : World σ)
    (moves : List (Nat × Move (World σ) Consumer)) (line : Pipeline (World σ) Consumer) : Prop where
  run : Pipeline.Runs World.host World.Steady (.start workers world) moves line
  allRead : ∀ w s, (w, s) ∈ line.crew → s.exit? = none → ∀ topic ∈ w.topics,
    line.world.broker.nextOffset topic ≤ line.world.broker.reached w.group topic

namespace Orderly

variable {rules : Rules σ} {p : Plan (World σ)} {workers : List (Worker (World σ))} {group : String}
  {world : World σ}

theorem obeys (orderly : Orderly rules p workers group world) : ∀ w ∈ workers, Obeys rules w :=
  obeys_of_workers orderly.accepted orderly.sink
    (fun a accepted e world => (orderly.handlers a accepted e world).sameLogs) orderly.decided

theorem quietly (orderly : Orderly rules p workers group world) :
    ∀ w ∈ workers, HandlesQuietly w := fun w worker => (orderly.obeys w worker).quietly

theorem steadily (orderly : Orderly rules p workers group world) :
    ∀ w ∈ workers, HandlesSteadily w :=
  handlesSteadily_of_workers orderly.accepted orderly.sink orderly.handlers

theorem fresh_of_agenda (orderly : Orderly rules p workers group world) {w : Worker (World σ)}
    (worker : w ∈ workers) {d : Delivery} (mem : d ∈ agenda w world.broker world.broker) :
    IsFresh d.payload := by
  obtain ⟨subscribed, held⟩ := mem_agenda.mp mem
  obtain ⟨offset, r, behind, holds, same⟩ := Broker.mem_messages.mp held
  have fresh := orderly.fresh w worker d.topic subscribed offset r behind holds
  rw [same]
  exact fresh

end Orderly

/-- An orderly pipeline in which the group of the retry worker does not stand beyond the end of the
retry topic, and all whose pauses the clock can tell. -/
structure Unhindered (rules : Rules σ) (p : Plan (World σ)) (workers : List (Worker (World σ)))
    (group : String) (world : World σ) : Prop extends Orderly rules p workers group world where
  inside : world.broker.reached p.publisher.failureTopics.retryGroup
    p.publisher.failureTopics.retryTopic ≤
      world.broker.nextOffset p.publisher.failureTopics.retryTopic
  brief : ∀ streak, p.timer.outlastedBy (p.settings.backoff streak) = false

section Exhausted

variable {rules : Rules σ} {p : Plan (World σ)} {workers : List (Worker (World σ))} {group : String}
  {world : World σ} {moves : List (Nat × Move (World σ) Consumer)}
  {line : Pipeline (World σ) Consumer}

theorem Unhindered.governed (unhindered : Unhindered rules p workers group world) :
    Governed rules p workers world :=
  ⟨unhindered.accepted, unhindered.obeys, unhindered.refusing, unhindered.inside⟩

/-- The records that were added to the retry topic and whose events failed in this group first. -/
def retriedOf (group : String) (p : Plan (World σ))
    (moves : List (Nat × Move (World σ) Consumer)) : List Record :=
  (retried p moves).filter (Record.isOf group)

theorem Exhausts.quiet (one : Exhausts workers world moves line) :
    Pipeline.Runs World.host World.Quiet (.start workers world) moves line :=
  one.run.mono fun _ _ steady => steady.sameLogs.quiet

variable (unhindered : Unhindered rules p workers group world)
include unhindered

/-- Every worker follows its agenda for as long as it lives. -/
theorem Exhausts.follows (one : Exhausts workers world moves line) {i : Nat}
    {w : Worker (World σ)} (worker : workers[i]? = some w) :
    ∃ s, line.crew[i]? = some (w, s) ∧ w.Makes World.host .initial (own i moves) s ∧
      Follows w world.broker line.world (own i moves) s ∧
      ∀ m ∈ own i moves, m.found.broker.refusing = rules.refusing :=
  unhindered.governed.follows (fun _ _ steady => steady.sameLogs) one.run worker

/-- The worker of a group adds records of its own group, or of none. -/
theorem Exhausts.originGroup?_of_gain (one : Exhausts workers world moves line) {j : Nat}
    {other : String} (serves : p.registry.groups[j]? = some other) {m : Move (World σ) Consumer}
    (made : m ∈ own j moves) : ∀ a ∈ gain m,
      originGroup? a.2.payload = none ∨ originGroup? a.2.payload = some other := by
  have worker := Plan.business_of_workers unhindered.accepted serves
  have member := List.mem_of_getElem? worker
  have registered := List.mem_of_getElem? serves
  obtain ⟨s, -, makes, follows, -⟩ := one.follows unhindered worker
  obtain ⟨earlier, later, split⟩ := List.append_of_mem made
  obtain ⟨before, step⟩ := makes.before split
  have gains := (unhindered.quietly _ member).gains (does_step step)
  rcases gains.mayAdd before with nothing | ⟨c, d, -, held, -, -, adds⟩
  · rw [nothing]
    exact fun _ => nofun
  · have fetches : d ∈ fetched (own j moves) := by
      rw [split, fetched, List.filterMap_append]
      exact List.mem_append_left _ (before.mem_fetched_of_held rfl held)
    have todo : d ∈ agenda _ world.broker line.world.broker :=
      follows.course ▸ List.mem_append_left _ fetches
    rw [agenda_business unhindered.accepted unhindered.quietly one.quiet] at todo
    have business : other ≠ p.publisher.failureTopics.retryGroup :=
      Plan.ne_retryGroup_of_workers unhindered.accepted registered
    exact adds.originGroup?_of_business (beq_false_of_ne business)
      (unhindered.fresh_of_agenda member todo)

/-- The records of a group are added by its own worker and by the retry worker. -/
theorem Exhausts.perm_arrivalsOf_own (one : Exhausts workers world moves line) {i : Nat}
    (serves : p.registry.groups[i]? = some group) :
    (arrivalsOf group ((moves.map Prod.snd).flatMap gain)).Perm
      (arrivalsOf group ((own i moves).flatMap gain) ++
        arrivalsOf group ((own p.registry.groups.length moves).flatMap gain)) := by
  have inside := (List.getElem?_eq_some_iff.mp serves).1
  have count : workers.length = p.registry.groups.length + 1 := by
    rw [Plan.workers_eq unhindered.accepted, List.length_append, List.length_map]
    rfl
  -- of the business workers only the group's own one adds records of the group
  have others : ∀ j ∈ List.range p.registry.groups.length,
      arrivalsOf group ((own j moves).flatMap gain) =
        if i = j then arrivalsOf group ((own i moves).flatMap gain) else [] := by
    intro j mem
    by_cases same : i = j
    · rw [if_pos same, same]
    · rw [if_neg same]
      apply arrivalsOf_eq_nil
      intro a mem' ours
      obtain ⟨m, made, gained⟩ := List.mem_flatMap.mp mem'
      have serves' := List.getElem?_eq_getElem (List.mem_range.mp mem)
      rcases one.originGroup?_of_gain unhindered serves' made a gained with nobody | another
      · rw [ours] at nobody
        cases nobody
      · rw [ours, Option.some.injEq] at another
        rw [another] at serves
        exact same ((List.getElem?_inj inside (Names.nodup_ofList _)).mp (serves.trans serves'.symm))
  have total := (perm_flatMap_own one.run.lt_of_mem gain).filter fun a => a.2.isOf group
  rw [count, List.range_succ, List.flatMap_append, List.flatMap_singleton] at total
  change (arrivalsOf _ _).Perm (arrivalsOf _ _) at total
  rw [arrivalsOf_append, arrivalsOf_flatMap _ (List.range _), List.flatMap_congr others,
    flatMap_range_single, if_pos inside] at total
  exact total

/-- A worker whose group was undisturbed has fetched its whole agenda and has nothing at hand. -/
theorem Exhausts.worker (one : Exhausts workers world moves line) {i : Nat} {w : Worker (World σ)}
    (worker : workers[i]? = some w) (undisturbed : world.Undisturbed w.group) :
    ∃ s, line.crew[i]? = some (w, s) ∧ w.Makes World.host .initial (own i moves) s ∧
      s.phase.held? = none ∧ fetched (own i moves) = agenda w world.broker line.world.broker ∧
      ∀ m ∈ own i moves, m.found.broker.refusing = rules.refusing := by
  obtain ⟨s, present, makes, follows, refusing⟩ := one.follows unhindered worker
  have brief : ∀ streak, w.timer.outlastedBy (w.settings.backoff streak) = false := by
    obtain ⟨settings, timer⟩ :=
      Plan.timings_of_workers unhindered.accepted (List.mem_of_getElem? worker)
    rw [settings, timer]
    exact unhindered.brief
  have going := isGoing_of_runs unhindered.steadily one.run present undisturbed brief
  have allRead := one.allRead w s (List.mem_of_getElem? present) (WorkerState.exit?_of_isGoing going)
  obtain ⟨idle, all⟩ := follows.of_allRead makes allRead
  exact ⟨s, present, makes, idle, all, refusing⟩

/-- What the retry worker adds for a group it adds for the group's records that were added to the retry
topic. -/
theorem Exhausts.arrivalsOf_retry (one : Exhausts workers world moves line) :
    let w := Worker.retry p.brokers p.registry p.publisher p.settings p.timer
    arrivalsOf group ((own p.registry.groups.length moves).flatMap gain) =
      (retriedOf group p moves).flatMap fun r =>
        (rules.fate w (r.message p.publisher.failureTopics.retryTopic 0)).adds := by
  intro w
  have worker := Plan.retry_of_workers unhindered.accepted
  have member := List.mem_of_getElem? worker
  obtain ⟨s, -, makes, idle, all, refusing⟩ := one.worker unhindered worker unhindered.retries
  have origin : ∀ d, ∀ a ∈ (rules.fate w d).adds, originGroup? a.2.payload = originGroup? d.payload :=
    fun d => (rules.mayAdd_fate w d).originGroup?_of_retry (beq_self_eq_true _)
  -- nothing that was there at the start is of any group, so only what was added to the topic counts
  have old : arrivalsOf group ((agenda w world.broker world.broker).flatMap fun d =>
      (rules.fate w d).adds) = [] := by
    apply arrivalsOf_eq_nil
    intro a mem ours
    obtain ⟨d, todo, adds⟩ := List.mem_flatMap.mp mem
    rw [origin d a adds, (unhindered.fresh_of_agenda member todo).originGroup?_eq] at ours
    cases ours
  have records := records_of_runs unhindered.quietly one.quiet p.publisher.failureTopics.retryTopic
  rw [(unhindered.obeys w member).adds_eq makes refusing idle, all,
    flatMap_agenda_retry _ (fun r i => congrArg Fate.adds (rules.fate_message w _ r i 0))
      unhindered.inside records, arrivalsOf_append, old, List.nil_append]
  apply filter_flatMap_of_same
  intro r a adds
  rw [Record.isOf, origin _ a adds]
  rfl

/-- The records of a group come from those that its own worker adds. -/
theorem Exhausts.perm_arrivalsOf (one : Exhausts workers world moves line) {i : Nat}
    (serves : p.registry.groups[i]? = some group) :
    let w := Worker.retry p.brokers p.registry p.publisher p.settings p.timer
    (arrivalsOf group ((moves.map Prod.snd).flatMap gain)).Perm
      (arrivalsOf group ((own i moves).flatMap gain) ++
        (retriedOf group p moves).flatMap fun r =>
          (rules.fate w (r.message p.publisher.failureTopics.retryTopic 0)).adds) := by
  intro w
  rw [← one.arrivalsOf_retry unhindered]
  exact one.perm_arrivalsOf_own unhindered serves

end Exhausted

/-! ### Two pipelines with a group in common -/

/-- The two plans have the same publisher and the same listeners in this group, and the two worlds the
same logs and commits. -/
structure SameFor (group : String) (p p' : Plan (World σ)) (world world' : World σ) : Prop where
  publisher : p'.publisher = p.publisher
  listeners : p'.registry.listeners group = p.registry.listeners group
  arrivals : world'.broker.arrivals = world.broker.arrivals
  offsets : world'.broker.offsets = world.broker.offsets

namespace SameFor

variable {rules : Rules σ} {group : String} {p p' : Plan (World σ)} {world world' : World σ}

theorem records (same : SameFor group p p' world world') (topic : String) :
    world'.broker.records topic = world.broker.records topic :=
  Broker.records_congr same.arrivals topic

theorem reached (same : SameFor group p p' world world') (other topic : String) :
    world'.broker.reached other topic = world.broker.reached other topic :=
  Broker.reached_congr (Broker.committed?_congr same.offsets other topic)

theorem inside (same : SameFor group p p' world world')
    (inside : world.broker.reached p.publisher.failureTopics.retryGroup
      p.publisher.failureTopics.retryTopic ≤
        world.broker.nextOffset p.publisher.failureTopics.retryTopic) :
    world'.broker.reached p'.publisher.failureTopics.retryGroup
      p'.publisher.failureTopics.retryTopic ≤
        world'.broker.nextOffset p'.publisher.failureTopics.retryTopic := by
  rw [same.publisher, same.reached, Broker.nextOffset, same.records]
  exact inside

/-- The group's worker has the same messages to read. -/
theorem agenda_eq (same : SameFor group p p' world world') :
    agenda (.business group p'.brokers p'.registry p'.publisher p'.settings p'.timer) world'.broker
        world'.broker =
      agenda (.business group p.brokers p.registry p.publisher p.settings p.timer) world.broker
        world.broker := by
  have topics : p'.registry.topicsFor group = p.registry.topicsFor group := by
    rw [Registry.topicsFor, Registry.topicsFor, same.listeners]
  change (Names.ofList (p'.registry.topicsFor group)).flatMap _ = _
  rw [topics]
  apply List.flatMap_congr
  intro topic _
  rw [same.reached, Broker.messages_congr (same.records topic)]
  rfl

theorem listenersFor_eq (same : SameFor group p p' world world') {w w' : Worker (World σ)}
    (registry : w.registry = p.registry) (registry' : w'.registry = p'.registry) {r : Routed}
    (ours : r.group = group) : w'.listenersFor r = w.listenersFor r := by
  rw [listenersFor, listenersFor, registry, registry', Registry.matching, Registry.matching, ours,
    same.listeners]

/-- A message without an origin has the same fate with the group's worker. -/
theorem fate_business (same : SameFor group p p' world world')
    (other : group ≠ p.publisher.failureTopics.retryGroup) {d : Delivery} (fresh : IsFresh d.payload) :
    rules.fate (.business group p'.brokers p'.registry p'.publisher p'.settings p'.timer) d =
      rules.fate (.business group p.brokers p.registry p.publisher p.settings p.timer) d := by
  rw [same.publisher]
  apply Rules.fate_congr
  · rfl
  · intro bs e _ _
    rfl
  · intro r routes
    apply same.listenersFor_eq rfl rfl
    obtain ⟨bs, present, reads, route⟩ := routes
    obtain ⟨noGroup, -⟩ := fresh bs _ (d.payload_of_content? present) reads
    have business : (Worker.business group p.brokers p.registry p.publisher p.settings p.timer).isRetry =
        false := beq_false_of_ne other
    simp only [route?, Envelope.origin?, noGroup, business] at route
    exact (congrArg Prod.fst (Option.some.inj route)).symm

/-- A record of the group has the same fate with the retry worker. -/
theorem fate_retry (same : SameFor group p p' world world') {r : Record}
    (ours : r.isOf group = true) :
    rules.fate (.retry p'.brokers p'.registry p'.publisher p'.settings p'.timer)
        (r.message p'.publisher.failureTopics.retryTopic 0) =
      rules.fate (.retry p.brokers p.registry p.publisher p.settings p.timer)
        (r.message p.publisher.failureTopics.retryTopic 0) := by
  rw [same.publisher]
  apply Rules.fate_congr
  · rfl
  · intro bs e _ _
    rfl
  · intro routed routes
    apply same.listenersFor_eq rfl rfl
    have origin := routes.originGroup_of_isRetry (beq_self_eq_true _)
    obtain ⟨bs, present, reads, -⟩ := routes
    have payload : r.payload = some bs := Delivery.payload_of_content? present
    rw [Record.isOf, payload, originGroup?_of_read reads, origin] at ours
    exact Option.some.inj (beq_iff_eq.mp ours)

end SameFor

section Both

variable {rules : Rules σ} {group : String} {p p' : Plan (World σ)}
  {workers workers' : List (Worker (World σ))} {world world' : World σ}
  {moves moves' : List (Nat × Move (World σ) Consumer)} {line line' : Pipeline (World σ) Consumer}
  {i i' : Nat}

variable (first : Unhindered rules p workers group world)
  (second : Unhindered rules p' workers' group world') (same : SameFor group p p' world world')
  (serves : p.registry.groups[i]? = some group) (serves' : p'.registry.groups[i']? = some group)
  (one : Exhausts workers world moves line) (other : Exhausts workers' world' moves' line')
include first second same serves serves' one other

/-- The group's worker does the same in both pipelines. -/
theorem Exhausts.same_course :
    observed Occurrence.settlement? (own i moves) = observed Occurrence.settlement? (own i' moves') ∧
    observed Occurrence.commit? (own i moves) = observed Occurrence.commit? (own i' moves') ∧
    ((line.crew[i]?.map fun x => x.2.stats) = line'.crew[i']?.map fun x => x.2.stats) ∧
    (own i moves).flatMap gain = (own i' moves').flatMap gain := by
  have worker := Plan.business_of_workers first.accepted serves
  have worker' := Plan.business_of_workers second.accepted serves'
  have member := List.mem_of_getElem? worker
  have member' := List.mem_of_getElem? worker'
  have registered := List.mem_of_getElem? serves
  obtain ⟨s, present, makes, idle, all, refusing⟩ := one.worker first worker first.ours
  obtain ⟨s', present', makes', idle', all', refusing'⟩ := other.worker second worker' second.ours
  rw [agenda_business first.accepted first.quietly one.quiet] at all
  rw [agenda_business second.accepted second.quietly other.quiet,
    same.agenda_eq, ← all] at all'
  have fate : ∀ d ∈ fetched (own i moves), rules.fate _ d = rules.fate _ d := fun d fetches =>
    same.fate_business (Plan.ne_retryGroup_of_workers first.accepted registered)
      (first.fresh_of_agenda member (all ▸ fetches))
  have settlements : observed Occurrence.settlement? (own i moves) =
      observed Occurrence.settlement? (own i' moves') := by
    rw [(first.obeys _ member).settlements_eq makes refusing idle,
      (second.obeys _ member').settlements_eq makes' refusing' idle', all']
    apply List.map_congr_left
    intro d fetches
    rw [fate d fetches]
  refine ⟨settlements, ?_, ?_, ?_⟩
  · rw [commits_of_makes makes, commits_of_makes makes', settlements]
  · rw [present, present', Option.map_some, Option.map_some, makes.stats_eq, makes'.stats_eq,
      settlements]
  · rw [(first.obeys _ member).adds_eq makes refusing idle,
      (second.obeys _ member').adds_eq makes' refusing' idle', all']
    apply List.flatMap_congr
    intro d fetches
    rw [fate d fetches]

/-- In the other pipeline the records of the group come in the same way from what the group's worker
adds in this one. -/
theorem Exhausts.perm_arrivalsOf_other :
    let w := Worker.retry p.brokers p.registry p.publisher p.settings p.timer
    (arrivalsOf group ((moves'.map Prod.snd).flatMap gain)).Perm
      (arrivalsOf group ((own i moves).flatMap gain) ++
        (retriedOf group p' moves').flatMap fun r =>
          (rules.fate w (r.message p.publisher.failureTopics.retryTopic 0)).adds) := by
  intro w
  obtain ⟨-, -, -, gains⟩ := one.same_course first second same serves serves' other
  refine (other.perm_arrivalsOf second serves').trans (.of_eq ?_)
  rw [gains]
  congr 1
  apply List.flatMap_congr
  intro r mem
  exact congrArg Fate.adds (same.fate_retry (List.mem_filter.mp mem).2)

/-- The same retries of the group's events are added, but for their order. -/
theorem Exhausts.perm_retriedOf : (retriedOf group p moves).Perm (retriedOf group p' moves') := by
  let w := Worker.retry p.brokers p.registry p.publisher p.settings p.timer
  let topic := p.publisher.failureTopics.retryTopic
  have feedback := recordsOn_perm (one.perm_arrivalsOf first serves) topic
  have feedback' := recordsOn_perm
    (one.perm_arrivalsOf_other first second same serves serves' other) topic
  have here : recordsOn topic (arrivalsOf group ((moves.map Prod.snd).flatMap gain)) =
      retriedOf group p moves := recordsOn_arrivalsOf ..
  have here' : recordsOn topic (arrivalsOf group ((moves'.map Prod.snd).flatMap gain)) =
      retriedOf group p' moves' := by
    rw [recordsOn_arrivalsOf, retriedOf, retried, same.publisher]
  rw [recordsOn_append, here, recordsOn_flatMap] at feedback
  rw [recordsOn_append, here', recordsOn_flatMap] at feedback'
  apply perm_of_feedback (fun r => Nat.lt_succ_of_le (retryBudget_le r.payload)) ?_ feedback
    feedback'
  intro r r' comes
  exact Nat.lt_of_lt_of_le (retryBudget_lt_cost comes) (rules.mayAdd_fate w _).cost_le

/-- Each topic holds the same records of the group. -/
theorem Exhausts.perm_recordsOf (topic : String) :
    ((line.world.broker.records topic).filter (Record.isOf group)).Perm
      ((line'.world.broker.records topic).filter (Record.isOf group)) := by
  have arrivals := one.perm_arrivalsOf first serves
  have arrivals' := one.perm_arrivalsOf_other first second same serves serves' other
  have retries := one.perm_retriedOf first second same serves serves' other
  have all := arrivals.trans (((retries.flatMap_right _).append_left _).trans arrivals'.symm)
  rw [records_of_runs first.quietly one.quiet, records_of_runs second.quietly other.quiet,
    same.records, List.filter_append, List.filter_append, ← recordsOn_arrivalsOf,
    ← recordsOn_arrivalsOf]
  exact (recordsOn_perm all topic).append_left _

end Both

/-- Let two pipelines have the same publisher, and a group with the same listeners, begin with the same
logs and commits and refuse records on the same topics. They may have any other groups, with any
handlers, errors and rejections. Let the retry worker's group not stand beyond the end of the retry
topic at the start, and let the clock be able to tell the pauses. If the workers of each pipeline take
turns in any way until no worker that has not ended has a record unread or uncommitted, then the worker
of the group has dealt with the same messages with the same outcomes, made the same commits, counted the
same and added the same records; and each topic holds the same records whose events failed in the group
first, in whatever order. -/
theorem groups_isolated {rules : Rules σ} {group : String} {p p' : Plan (World σ)}
    {workers workers' : List (Worker (World σ))} {world world' : World σ}
    (orderly : Orderly rules p workers group world)
    (orderly' : Orderly rules p' workers' group world') (same : SameFor group p p' world world')
    (inside : world.broker.reached p.publisher.failureTopics.retryGroup
      p.publisher.failureTopics.retryTopic ≤
        world.broker.nextOffset p.publisher.failureTopics.retryTopic)
    (brief : ∀ streak, p.timer.outlastedBy (p.settings.backoff streak) = false)
    (brief' : ∀ streak, p'.timer.outlastedBy (p'.settings.backoff streak) = false)
    {i i' : Nat} (serves : p.registry.groups[i]? = some group)
    (serves' : p'.registry.groups[i']? = some group)
    {moves moves' : List (Nat × Move (World σ) Consumer)} {line line' : Pipeline (World σ) Consumer}
    (one : Exhausts workers world moves line) (other : Exhausts workers' world' moves' line') :
    observed Occurrence.settlement? (own i moves) = observed Occurrence.settlement? (own i' moves') ∧
    observed Occurrence.commit? (own i moves) = observed Occurrence.commit? (own i' moves') ∧
    ((line.crew[i]?.map fun x => x.2.stats) = line'.crew[i']?.map fun x => x.2.stats) ∧
    (own i moves).flatMap gain = (own i' moves').flatMap gain ∧
    ∀ topic, ((line.world.broker.records topic).filter (Record.isOf group)).Perm
      ((line'.world.broker.records topic).filter (Record.isOf group)) := by
  have first : Unhindered rules p workers group world := ⟨orderly, inside, brief⟩
  have second : Unhindered rules p' workers' group world' := ⟨orderly', same.inside inside, brief'⟩
  obtain ⟨settlements, commits, stats, gains⟩ :=
    one.same_course first second same serves serves' other
  refine ⟨settlements, commits, stats, gains, ?_⟩
  exact one.perm_recordsOf first second same serves serves' other

end Memory

/-! ### A group beside one that fails or does not -/

namespace Sample

open Memory

/-- A handler that succeeds on every event. -/
def soundHandler : Handler (World Unit) := ⟨"sound", fun _ world => (.ok (), world, [])⟩

/-- The listener of the sample, which fails, and that of another group. -/
def mixedRegistry (auditor : Handler (World Unit)) : Registry (Handler (World Unit)) :=
  ⟨none, [⟨"audit", ⟨["orders"], none, auditor⟩⟩, ⟨"billing", ⟨["orders"], none, brokenHandler⟩⟩]⟩

def mixedPlan (auditor : Handler (World Unit)) (settings : Settings) : Plan (World Unit) :=
  ⟨[], mixedRegistry auditor, publisher, settings, .standard, .ofSecs 1⟩

def mixedWorkers (auditor : Handler (World Unit)) (settings : Settings) :
    List (Worker (World Unit)) :=
  [.business "audit" [] (mixedRegistry auditor) publisher settings .standard,
    .business "billing" [] (mixedRegistry auditor) publisher settings .standard,
    .retry [] (mixedRegistry auditor) publisher settings .standard]

/-- The pipeline begins where the retry worker's group has committed this offset. -/
def mixedLine (auditor : Handler (World Unit)) (settings : Settings) (offset : Nat) :
    Pipeline (World Unit) Consumer := .start (mixedWorkers auditor settings) (committedWorld offset)

/-- The other group deals with the message, then the one of the sample, and then the retry worker reads
what there is. -/
def mixedTurns : List Nat := List.replicate 7 0 ++ List.replicate 7 1 ++ List.replicate 37 2

def mixedEnd (auditor : Handler (World Unit)) (settings : Settings) (offset : Nat) :
    Pipeline (World Unit) Consumer :=
  ((mixedLine auditor settings offset).exec World.host mixedTurns).1

def mixedMoves (auditor : Handler (World Unit)) (settings : Settings) (offset : Nat) :
    List (Nat × Move (World Unit) Consumer) :=
  (mixedLine auditor settings offset).trace World.host mixedTurns

/-- The retries of events that failed in the group of the sample first. -/
def billedRetries (auditor : Handler (World Unit)) (settings : Settings) (offset : Nat) :
    List Record :=
  ((mixedEnd auditor settings offset).world.broker.records "shop_failure_topic").filter
    (Record.isOf "billing")

/-- The sound handler succeeds, and no topic refuses records. -/
def mixedRules : Rules Unit := ⟨fun handler _ => handler.name == "sound", []⟩

theorem orderly_mixed {auditor : Handler (World Unit)}
    (known : auditor = soundHandler ∨ auditor = brokenHandler) (settings : Settings) (offset : Nat) :
    Orderly mixedRules (mixedPlan auditor settings) (mixedWorkers auditor settings) "billing"
      (committedWorld offset) := by
  constructor
  case accepted => rcases known with rfl | rfl <;> rfl
  case sink => rfl
  case refusing => rfl
  case ours => exact ⟨rfl, rfl, rfl⟩
  case retries => exact ⟨rfl, rfl, rfl⟩
  case handlers =>
    intro a accepted e world
    rcases List.mem_pair.mp accepted with rfl | rfl
    · rcases known with rfl | rfl <;> exact ⟨rfl, rfl⟩
    · exact ⟨rfl, rfl⟩
  case decided =>
    intro a accepted e world
    rcases List.mem_pair.mp accepted with rfl | rfl
    · rcases known with rfl | rfl <;> rfl
    · rfl
  case fresh =>
    intro w _ topic _ place r _ holds bs e present reads
    -- the only record that is there holds the message of the sample, and its event has no origin
    have single : r = ⟨none, message.payload⟩ := by
      have mem := holds.mem
      rw [Broker.records] at mem
      obtain ⟨arrival, arrived, rfl⟩ := List.mem_map.mp mem
      rw [List.mem_singleton.mp (List.mem_filter.mp arrived).1]
    rw [single] at present
    cases present
    have blank : e = .blank := Except.ok.inj (reads.symm.trans rfl)
    rw [blank]
    exact ⟨rfl, rfl⟩

theorem exhausts_mixed {auditor : Handler (World Unit)} {settings : Settings} {offset : Nat}
    (allRead : ∀ x ∈ (mixedEnd auditor settings offset).crew, x.2.exit? = none →
      ∀ topic ∈ x.1.topics,
        let b := (mixedEnd auditor settings offset).world.broker
        b.nextOffset topic ≤ b.reached x.1.group topic) :
    Exhausts (mixedWorkers auditor settings) (committedWorld offset)
      (mixedMoves auditor settings offset) (mixedEnd auditor settings offset) := by
  have begun : Pipeline.Runs World.host World.Steady
      (.start (mixedWorkers auditor settings) (committedWorld offset)) []
      (mixedLine auditor settings offset) := .start
  obtain ⟨run, -⟩ := begun.exec mixedTurns
  exact ⟨run, fun w s present => allRead (w, s) present⟩

/-- The pipeline whose other group fails and the one whose other group does not are alike in all that
concerns the group of the sample, and both have been run to the end. -/
structure AreAlike (settings : Settings) (offset : Nat) : Prop where
  failing : Orderly mixedRules (mixedPlan brokenHandler settings) (mixedWorkers brokenHandler settings)
    "billing" (committedWorld offset)
  sound : Orderly mixedRules (mixedPlan soundHandler settings) (mixedWorkers soundHandler settings)
    "billing" (committedWorld offset)
  same : SameFor "billing" (mixedPlan brokenHandler settings) (mixedPlan soundHandler settings)
    (committedWorld offset) (committedWorld offset)
  first : Exhausts (mixedWorkers brokenHandler settings) (committedWorld offset)
    (mixedMoves brokenHandler settings offset) (mixedEnd brokenHandler settings offset)
  second : Exhausts (mixedWorkers soundHandler settings) (committedWorld offset)
    (mixedMoves soundHandler settings offset) (mixedEnd soundHandler settings offset)

/-- Settings with pauses that outlast the clock of the samples. -/
def tiring : Settings := ⟨.zero, .greatest, .greatest⟩

end Sample

namespace Memory

/-- The retries of a group are the same beside a group that fails, too, and beside one that does
not. -/
theorem sample_groups_isolated : Sample.billedRetries Sample.brokenHandler .standard 0 ≠ [] ∧
    (Sample.billedRetries Sample.brokenHandler .standard 0).Perm
      (Sample.billedRetries Sample.soundHandler .standard 0) := by
  have short : Timer.standard.outlastedBy Settings.standard.maxBackoff = false := by decide
  have brief := Settings.outlastedBy_backoff short
  have failing := Sample.orderly_mixed (.inr rfl) .standard 0
  have sound := Sample.orderly_mixed (.inl rfl) .standard 0
  have first := @Sample.exhausts_mixed Sample.brokenHandler .standard 0 (by decide +kernel)
  have second := @Sample.exhausts_mixed Sample.soundHandler .standard 0 (by decide +kernel)
  obtain ⟨-, -, -, -, retries⟩ := @groups_isolated _ _ _ _ _ _ _ _ _ failing sound
    ⟨rfl, rfl, rfl, rfl⟩ (by decide +kernel) brief brief 1 1 rfl rfl _ _ _ _ first second
  exact ⟨by decide +kernel, retries "shop_failure_topic"⟩

/-- If the retry worker's group has committed an offset beyond the end of the retry topic, or if a pause
outlasts the clock, a group that fails can keep the retries of another one from being read, or have them
read. -/
theorem sample_groups_disturb :
    (Sample.AreAlike .standard 1 ∧ ¬ (Sample.billedRetries Sample.brokenHandler .standard 1).Perm
      (Sample.billedRetries Sample.soundHandler .standard 1)) ∧
    Sample.AreAlike Sample.tiring 0 ∧
      ¬ (Sample.billedRetries Sample.brokenHandler Sample.tiring 0).Perm
        (Sample.billedRetries Sample.soundHandler Sample.tiring 0) := by
  refine ⟨⟨⟨?_, ?_, ?_, ?_, ?_⟩, by decide +kernel⟩, ⟨?_, ?_, ?_, ?_, ?_⟩, by decide +kernel⟩
  case refine_1 | refine_6 => exact Sample.orderly_mixed (.inr rfl) ..
  case refine_2 | refine_7 => exact Sample.orderly_mixed (.inl rfl) ..
  case refine_3 | refine_8 => exact ⟨rfl, rfl, rfl, rfl⟩
  all_goals exact Sample.exhausts_mixed (by decide +kernel)

end Memory

end EventPipeline
