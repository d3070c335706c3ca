import EventPipeline.Proofs.Escalation
import EventPipeline.Proofs.Memory.Added
import EventPipeline.Proofs.Pipeline.Runs
import EventPipeline.Proofs.Worker.Republish

/-! # Retries are bounded

However the workers of a pipeline take turns, the dispatches that descend from one record in one
group form a chain: each failure before the last one adds one record to the retry topic, the retry
worker fetches that record at most once, and the event in it is the same event with one more failure
counted, meant for the same listeners. So the chain ends after `maxFailures` retries, and the failure
of the last of them adds the one record to the dead-letter topic.
-/

namespace EventPipeline

/-! ### Attempts -/

/-- The event as it is when it is dispatched for the time with this number, counted from zero. -/
def Envelope.attempt (e : Envelope) (group topic : String) : Nat → Envelope
  | 0 => e
  | k + 1 => (e.attempt group topic k).retried group topic

namespace Envelope

variable {e : Envelope} {group topic : String}

theorem retryCount_attempt (retries : e.retries = none) (k : Nat) :
    (e.attempt group topic k).retryCount = UInt32.ofNat k := by
  induction k with
  | zero =>
    rw [attempt, retryCount, retries]
    rfl
  | succ k ih => rw [attempt, retryCount_retried, ih, UInt32.ofNat_add]; rfl

theorem ns_attempt (k : Nat) : (e.attempt group topic k).ns = e.ns := by
  induction k with
  | zero => rfl
  | succ k ih => exact ih

theorem originGroup_attempt (none : e.originGroup = none) (k : Nat) :
    (e.attempt group topic k).originGroup.getD group = group := by
  induction k with
  | zero =>
    rw [attempt, none]
    rfl
  | succ k ih => exact ih

theorem originTopic_attempt (none : e.originTopic = none) (k : Nat) :
    (e.attempt group topic k).originTopic.getD topic = topic := by
  induction k with
  | zero =>
    rw [attempt, none]
    rfl
  | succ k ih => exact ih

theorem origin?_attempt_succ (noGroup : e.originGroup = none) (noTopic : e.originTopic = none)
    (k : Nat) : (e.attempt group topic (k + 1)).origin? = some (group, topic) := by
  rw [attempt, origin?_retried, originGroup_attempt noGroup, originTopic_attempt noTopic]

theorem ofNat_lt_maxFailures_iff {k : Nat} (few : k ≤ maxFailures.toNat) :
    UInt32.ofNat k < maxFailures ↔ k < maxFailures.toNat := by
  have few' : k ≤ 3 := few
  rw [UInt32.lt_iff_toNat_lt, UInt32.toNat_ofNat', Nat.mod_eq_of_lt (by omega)]

end Envelope

namespace Memory

open Worker

variable {σ : Type}

/-! ### Fetches of one record -/

/-- The fetches of the record of a topic at an offset. -/
def fetchedAt (topic : String) (offset : Nat) (moves : List (Move (World σ) Consumer)) :
    List Delivery :=
  (fetched moves).filter fun d => d.topic = topic ∧ d.offset = offset

/-- No record is fetched twice. -/
theorem fetchedAt_cases {w : Worker (World σ)} {start s : WorkerState Consumer}
    {moves : List (Move (World σ) Consumer)} (run : w.Makes World.host start moves s)
    (topic : String) (offset : Nat) :
    fetchedAt topic offset moves = [] ∨
      ∃ d ∈ fetched moves, fetchedAt topic offset moves = [d] ∧ d.topic = topic ∧
        d.offset = offset := by
  have increasing : (fetchedAt topic offset moves).Pairwise Precedes :=
    (fetched_increasing run).sublist List.filter_sublist
  have here : ∀ d ∈ fetchedAt topic offset moves,
      d ∈ fetched moves ∧ d.topic = topic ∧ d.offset = offset := by
    intro d mem
    simpa [fetchedAt] using mem
  match found : fetchedAt topic offset moves with
  | [] => exact .inl rfl
  | [d] =>
    obtain ⟨fetches, sameTopic, sameOffset⟩ := here d (by simp [found])
    exact .inr ⟨d, fetches, rfl, sameTopic, sameOffset⟩
  | d :: d' :: rest =>
    obtain ⟨-, topic₁, offset₁⟩ := here d (by simp [found])
    obtain ⟨-, topic₂, offset₂⟩ := here d' (by simp [found])
    rw [found] at increasing
    have precedes := List.rel_of_pairwise_cons increasing (List.mem_cons_self ..)
    have less := precedes (topic₁.trans topic₂.symm)
    omega

/-- The dispatches that descend from one record, in generations, each with the index of the worker
that made it: first that by worker `i` of the record itself, and then those by worker `last` of the
records that were added to the retry topic with an event of the generation before at hand. -/
def descent (retryTopic : String) (i last : Nat) (topic : String) (offset : Nat)
    (moves : List (Nat × Move (World σ) Consumer)) : Nat → List (Nat × Delivery)
  | 0 => (fetchedAt topic offset (own i moves)).map fun d => (i, d)
  | k + 1 => (descent retryTopic i last topic offset moves k).flatMap fun (j, d) =>
    (addedFor retryTopic d (own j moves)).flatMap fun added =>
      (fetchedAt retryTopic added (own last moves)).map fun d' => (last, d')

/-! ### The broker in a run -/

/-- Others have added records, and no topic refuses records that did not before. -/
structure World.Receives (world world' : World σ) : Prop where
  grows : world.broker.Grows world'.broker
  refusing : world'.broker.refusing = world.broker.refusing

/-- In a run of workers that only escalate no record goes away, and a broker that refuses no topic
keeps taking all records. -/
theorem grows_of_runs {workers : List (Worker (World σ))} (only : ∀ w ∈ workers, OnlyEscalates w)
    {world : World σ} (accepting : world.broker.refusing = [])
    {moves : List (Nat × Move (World σ) Consumer)} {line : Pipeline (World σ) Consumer}
    (run : Pipeline.Runs World.host World.Receives (.start workers world) moves line) :
    line.world.broker.refusing = [] ∧ ∀ made ∈ moves,
      made.2.found.broker.Grows line.world.broker ∧
        made.2.left.broker.Grows line.world.broker ∧ made.2.found.broker.refusing = [] := by
  induction run with
  | start => exact ⟨accepting, fun made none => absurd none List.not_mem_nil⟩
  | @moved moves line i w s s' world' happened earlier chosen made ih =>
    obtain ⟨accepting, before⟩ := ih
    have worker := List.mem_of_getElem? (earlier.worker_of_mem chosen)
    obtain ⟨grows, refusing⟩ := (only w worker).grows (does_step made)
    refine ⟨refusing.trans accepting, ?_⟩
    intro m mem
    rcases List.mem_append.mp mem with old | new
    · obtain ⟨found, left, accepted⟩ := before m old
      exact ⟨found.trans grows, left.trans grows, accepted⟩
    · cases List.mem_singleton.mp new
      exact ⟨grows, .refl _, accepting⟩
  | changed _ change ih =>
    obtain ⟨accepting, before⟩ := ih
    refine ⟨change.refusing.trans accepting, ?_⟩
    intro m mem
    obtain ⟨found, left, accepted⟩ := before m mem
    exact ⟨found.trans change.grows, left.trans change.grows, accepted⟩

theorem onlyEscalates_of_workers {p : Plan (World σ)} {workers : List (Worker (World σ))}
    (accepted : p.workers = .ok workers) (sink : p.publisher.sink = World.sink)
    (handlers : ∀ a ∈ p.registry.accepted, ∀ e world,
      World.SameTopics world (a.listener.handler.handle e world).2.1) :
    ∀ w ∈ workers, OnlyEscalates w := by
  intro w worker
  obtain ⟨registry, publisher⟩ := Plan.same_of_workers accepted worker
  exact ⟨publisher ▸ sink, registry ▸ handlers⟩

/-! ### The chain of dispatches -/

/-- The worker with index `j` dispatches the event of this message as its attempt with number
`k`. -/
structure IsAttempt (workers : List (Worker (World σ)))
    (moves : List (Nat × Move (World σ) Consumer)) (e : Envelope) (group topic : String)
    (k j : Nat) (d : Delivery) : Prop where
  few : k ≤ maxFailures.toNat
  dispatched : ∃ w, workers[j]? = some w ∧ d ∈ fetched (own j moves) ∧
    w.Routes d ⟨e.attempt group topic k, group, topic⟩

/-- Generations of dispatches of which each is empty or one attempt. -/
def IsChain (workers : List (Worker (World σ))) (moves : List (Nat × Move (World σ) Consumer))
    (e : Envelope) (group topic : String) (dispatches : Nat → List (Nat × Delivery)) : Prop :=
  ∀ k, dispatches k = [] ∨
    ∃ j d, dispatches k = [(j, d)] ∧ IsAttempt workers moves e group topic k j d

namespace IsChain

variable {workers : List (Worker (World σ))} {moves : List (Nat × Move (World σ) Consumer)}
  {e : Envelope} {group topic : String} {dispatches : Nat → List (Nat × Delivery)}

theorem attempt (chain : IsChain workers moves e group topic dispatches) {k j : Nat}
    {d : Delivery} (mem : (j, d) ∈ dispatches k) :
    IsAttempt workers moves e group topic k j d := by
  rcases chain k with none | ⟨j', d', one, attempt⟩
  · rw [none] at mem
    cases mem
  · rw [one] at mem
    cases List.mem_singleton.mp mem
    exact attempt

theorem length_le_one (chain : IsChain workers moves e group topic dispatches) (k : Nat) :
    (dispatches k).length ≤ 1 := by
  rcases chain k with none | ⟨j, d, one, -⟩
  · rw [none]
    exact Nat.zero_le _
  · rw [one]
    exact Nat.le_refl _

theorem eq_nil_of_late (chain : IsChain workers moves e group topic dispatches) (k : Nat)
    (late : maxFailures.toNat + 1 ≤ k) : dispatches k = [] := by
  rcases chain k with none | ⟨j, d, -, attempt⟩
  · exact none
  · exact absurd attempt.few (Nat.not_le.mpr late)

end IsChain

/-- What an attempt leaves on the retry path: the next attempt, if it failed and there is one, or the
dead letter, if it failed and was the last one, and nothing before its dispatch is finished or if all
went well. -/
inductive Leaves (f : FailureTopics) (moves : List (Nat × Move (World σ) Consumer))
    (line : Pipeline (World σ) Consumer) (e : Envelope) (group topic : String) (k j : Nat)
    (d : Delivery) : Prop where
  | retried {q : Nat} (few : k < maxFailures.toNat) (done : d ∈ finished (own j moves))
    (fails : ∃ m ∈ handling d (own j moves), Fails m.happened)
    (retry : addedFor f.retryTopic d (own j moves) = [q])
    (dead : addedFor f.deadTopic d (own j moves) = [])
    (holds : line.world.broker.Holds f.retryTopic q
      ⟨d.keyText?, some (e.attempt group topic (k + 1)).payload⟩)
  | buried {q : Nat} (last : k = maxFailures.toNat) (done : d ∈ finished (own j moves))
    (fails : ∃ m ∈ handling d (own j moves), Fails m.happened)
    (retry : addedFor f.retryTopic d (own j moves) = [])
    (dead : addedFor f.deadTopic d (own j moves) = [q])
    (holds : line.world.broker.Holds f.deadTopic q
      ⟨d.keyText?, some (e.attempt group topic k).payload⟩)
  | nothing
    (well : ¬ (d ∈ finished (own j moves) ∧ ∃ m ∈ handling d (own j moves), Fails m.happened))
    (retry : addedFor f.retryTopic d (own j moves) = [])
    (dead : addedFor f.deadTopic d (own j moves) = [])

namespace Leaves

variable {f : FailureTopics} {moves : List (Nat × Move (World σ) Consumer)}
  {line : Pipeline (World σ) Consumer} {e : Envelope} {group topic : String} {k j : Nat}
  {d : Delivery}

theorem fails_of_added (leaves : Leaves f moves line e group topic k j d) {q : Nat}
    (added : q ∈ addedFor f.retryTopic d (own j moves)) :
    ∃ m ∈ handling d (own j moves), Fails m.happened := by
  cases leaves with
  | retried _ _ fails => exact fails
  | buried _ _ fails => exact fails
  | nothing _ retry =>
    rw [retry] at added
    cases added

theorem dead_cases (leaves : Leaves f moves line e group topic k j d) :
    addedFor f.deadTopic d (own j moves) = [] ∨
      k = maxFailures.toNat ∧ ∃ q, addedFor f.deadTopic d (own j moves) = [q] := by
  cases leaves with
  | retried _ _ _ _ dead => exact .inl dead
  | buried last _ _ _ dead => exact .inr ⟨last, _, dead⟩
  | nothing _ _ dead => exact .inl dead

/-- An attempt leaves a dead letter if and only if it was the last one, and it failed. -/
theorem dead_ne_nil_iff (leaves : Leaves f moves line e group topic k j d) :
    addedFor f.deadTopic d (own j moves) ≠ [] ↔
      k = maxFailures.toNat ∧ d ∈ finished (own j moves) ∧
        ∃ m ∈ handling d (own j moves), Fails m.happened := by
  constructor
  · intro some
    cases leaves with
    | retried _ _ _ _ dead => exact absurd dead some
    | buried last done fails => exact ⟨last, done, fails⟩
    | nothing _ _ dead => exact absurd dead some
  · rintro ⟨last, failed⟩
    cases leaves with
    | retried few => exact absurd last (Nat.ne_of_lt few)
    | buried _ _ _ _ dead =>
      rw [dead]
      exact List.cons_ne_nil _ _
    | nothing well => exact absurd failed well

theorem holds_of_dead (leaves : Leaves f moves line e group topic k j d) {q : Nat}
    (added : q ∈ addedFor f.deadTopic d (own j moves)) :
    line.world.broker.Holds f.deadTopic q
      ⟨d.keyText?, some (e.attempt group topic k).payload⟩ := by
  cases leaves with
  | retried _ _ _ _ dead =>
    rw [dead] at added
    cases added
  | buried _ _ _ _ dead there =>
    rw [dead] at added
    cases List.mem_singleton.mp added
    exact there
  | nothing _ _ dead =>
    rw [dead] at added
    cases added

end Leaves

section Chain

variable {p : Plan (World σ)} {workers : List (Worker (World σ))} {world : World σ}
  {moves : List (Nat × Move (World σ) Consumer)} {line : Pipeline (World σ) Consumer}
  {e : Envelope} {group topic : String}

theorem IsAttempt.leaves (accepted : p.workers = .ok workers)
    (only : ∀ w ∈ workers, OnlyEscalates w) (accepting : world.broker.refusing = [])
    (run : Pipeline.Runs World.host World.Receives (.start workers world) moves line)
    (free : group ≠ p.publisher.failureTopics.retryGroup ∧
      p.publisher.failureTopics.isReservedTopic topic = false)
    (retries : e.retries = none) {k j : Nat} {d : Delivery}
    (attempt : IsAttempt workers moves e group topic k j d) :
    Leaves p.publisher.failureTopics moves line e group topic k j d := by
  obtain ⟨w, worker, -, routes⟩ := attempt.dispatched
  have member := List.mem_of_getElem? worker
  obtain ⟨s, -, makes⟩ := run.makes worker
  obtain ⟨-, grown⟩ := grows_of_runs only accepting run
  have names : w.failureTopics = p.publisher.failureTopics :=
    congrArg Publisher.failureTopics (Plan.same_of_workers accepted member).2
  have apart : p.publisher.failureTopics.retryTopic ≠ p.publisher.failureTopics.deadTopic :=
    FailureTopics.retryTopic_ne_deadTopic _
  have made : ∀ m ∈ handling d (own j moves), (j, m) ∈ moves :=
    fun m handled => mem_of_mem_own (List.mem_of_mem_filter handled)
  rcases (only w member).adds_of_finished makes routes with ⟨done, adds⟩ | ⟨undone, nothing⟩
  · cases adds with
    | @escalated path e' last fails planned mem append all =>
      rw [names] at planned append
      have there := Broker.holds_append last.found.broker
        (p.publisher.failureTopics.topicOf path) ⟨d.keyText?, some e'.payload⟩
      rw [← append] at there
      have holds := there.mono (grown _ (made last mem)).2.1
      rcases FailureTopics.plan?_cases planned with ⟨rfl, remaining, rfl⟩ | ⟨rfl, exhausted, rfl⟩
      · rw [Envelope.retryCount_attempt retries,
          Envelope.ofNat_lt_maxFailures_iff attempt.few] at remaining
        exact .retried remaining done fails ((all _).trans (added_append_self append))
          ((all _).trans (added_append_of_ne append apart.symm)) holds
      · rw [Envelope.retryCount_attempt retries, ← UInt32.not_lt,
          Envelope.ofNat_lt_maxFailures_iff attempt.few, Nat.not_lt] at exhausted
        exact .buried (Nat.le_antisymm attempt.few exhausted) done fails
          ((all _).trans (added_append_of_ne append apart)) ((all _).trans (added_append_self append))
          holds
    | refused fails nowhere =>
      rcases nowhere with unplanned | ⟨m, handled, refuses⟩
      · rw [names] at unplanned
        rcases FailureTopics.plan?_eq_none_iff.mp unplanned with reserved | same
        · rw [free.2] at reserved
          cases reserved
        · exact absurd same free.1
      · exact absurd (grown _ (made m handled)).2.2 refuses
    | handled well nothing => exact .nothing (fun ⟨_, fails⟩ => well fails) (nothing _) (nothing _)
  · exact .nothing (fun ⟨done, _⟩ => undone done) (nothing _) (nothing _)

/-- A fetched message has the content of the record that the broker holds in its place now. -/
theorem payload_eq_of_fetched (only : ∀ w ∈ workers, OnlyEscalates w)
    (accepting : world.broker.refusing = [])
    (run : Pipeline.Runs World.host World.Receives (.start workers world) moves line)
    {j : Nat} {w : Worker (World σ)} (worker : workers[j]? = some w) {d : Delivery}
    (fetches : d ∈ fetched (own j moves)) {offset : Nat} {r : Record}
    (holds : line.world.broker.Holds topic offset r) (sameTopic : d.topic = topic)
    (sameOffset : d.offset = offset) : d.payload = r.payload := by
  obtain ⟨s, -, makes⟩ := run.makes worker
  obtain ⟨m, made, delivers⟩ := exists_delivers_of_fetched makes fetches
  have grown := (grows_of_runs only accepting run).2 _ (mem_of_mem_own made)
  exact (delivers.mono grown.1).payload_eq holds sameTopic sameOffset

/-- The dispatch of the record itself is the first attempt. -/
theorem IsAttempt.first (accepted : p.workers = .ok workers)
    (only : ∀ w ∈ workers, OnlyEscalates w) (accepting : world.broker.refusing = [])
    (run : Pipeline.Runs World.host World.Receives (.start workers world) moves line) {i : Nat}
    (serves : p.registry.groups[i]? = some group)
    (free : group ≠ p.publisher.failureTopics.retryGroup) {offset : Nat} {r : Record}
    (holds : line.world.broker.Holds topic offset r) {bs : Octets} (payload : r.payload = some bs)
    (reads : Envelope.read bs = .ok e) (noGroup : e.originGroup = none) {d : Delivery}
    (fetches : d ∈ fetched (own i moves)) (sameTopic : d.topic = topic)
    (sameOffset : d.offset = offset) : IsAttempt workers moves e group topic 0 i d := by
  have worker := Plan.business_of_workers accepted serves
  have same := payload_eq_of_fetched only accepting run worker fetches holds sameTopic sameOffset
  have content := Delivery.content?_of_read (same.trans payload) reads
  have nowhere : e.origin? = none := by rw [Envelope.origin?, noGroup]
  have business : (Worker.business group p.brokers p.registry p.publisher
      p.settings p.timer).isRetry = false := beq_false_of_ne free
  refine ⟨Nat.zero_le _, _, worker, fetches, bs, content, reads, ?_⟩
  rw [Envelope.attempt, route?, nowhere, business, sameTopic]
  rfl

/-- The dispatch of the record that a failed attempt added to the retry topic is the next attempt. -/
theorem IsAttempt.next (accepted : p.workers = .ok workers)
    (only : ∀ w ∈ workers, OnlyEscalates w) (accepting : world.broker.refusing = [])
    (run : Pipeline.Runs World.host World.Receives (.start workers world) moves line)
    (noTopic : e.originTopic = none) (noGroup : e.originGroup = none) {k j : Nat} {d : Delivery}
    (attempt : IsAttempt workers moves e group topic k j d) (few : k < maxFailures.toNat) {q : Nat}
    {key : Option String} (copied : line.world.broker.Holds p.publisher.failureTopics.retryTopic q
      ⟨key, some (e.attempt group topic (k + 1)).payload⟩) {d' : Delivery}
    (fetches : d' ∈ fetched (own p.registry.groups.length moves))
    (sameTopic : d'.topic = p.publisher.failureTopics.retryTopic) (sameOffset : d'.offset = q) :
    IsAttempt workers moves e group topic (k + 1) p.registry.groups.length d' := by
  obtain ⟨_, _, _, ⟨_, _, reads, _⟩⟩ := attempt.dispatched
  have formed : (e.attempt group topic (k + 1)).WellFormed :=
    (Envelope.wellFormed_of_read reads).congr rfl rfl
  have reads' := Envelope.read_payload formed
  have worker := Plan.retry_of_workers accepted
  have same := payload_eq_of_fetched only accepting run worker fetches copied sameTopic sameOffset
  have content := Delivery.content?_of_read same reads'
  exact ⟨few, _, worker, fetches, _, content, reads',
    route?_of_origin? (Envelope.origin?_attempt_succ noGroup noTopic k) _ d'⟩

/-- Each generation is empty or one attempt. -/
theorem isChain_descent (accepted : p.workers = .ok workers)
    (only : ∀ w ∈ workers, OnlyEscalates w) (accepting : world.broker.refusing = [])
    (run : Pipeline.Runs World.host World.Receives (.start workers world) moves line) {i : Nat}
    (serves : p.registry.groups[i]? = some group) (subscribed : topic ∈ p.registry.topicsFor group)
    {offset : Nat} {r : Record} (holds : line.world.broker.Holds topic offset r) {bs : Octets}
    (payload : r.payload = some bs) (reads : Envelope.read bs = .ok e)
    (retries : e.retries = none) (noTopic : e.originTopic = none)
    (noGroup : e.originGroup = none) :
    IsChain workers moves e group topic (descent p.publisher.failureTopics.retryTopic i
      p.registry.groups.length topic offset moves) := by
  have free := Plan.free_of_workers accepted subscribed
  intro k
  induction k with
  | zero =>
    obtain ⟨s, -, makes⟩ := run.makes (Plan.business_of_workers accepted serves)
    rcases fetchedAt_cases makes topic offset with none | ⟨d, fetches, one, sameTopic, sameOffset⟩
    · left
      rw [descent, none, List.map_nil]
    · right
      refine ⟨i, d, ?_, IsAttempt.first accepted only accepting run serves free.1 holds payload
        reads noGroup fetches sameTopic sameOffset⟩
      rw [descent, one, List.map_singleton]
  | succ k ih =>
    rcases ih with none | ⟨j, d, one, attempt⟩
    · left
      rw [descent, none, List.flatMap_nil]
    · rw [descent, one, List.flatMap_singleton]
      dsimp only
      cases attempt.leaves accepted only accepting run free retries with
      | buried _ _ _ retry =>
        left
        rw [retry, List.flatMap_nil]
      | nothing _ retry =>
        left
        rw [retry, List.flatMap_nil]
      | @retried q few _ _ retry _ copied =>
        rw [retry, List.flatMap_singleton]
        obtain ⟨s, -, makes⟩ := run.makes (Plan.retry_of_workers accepted)
        rcases fetchedAt_cases makes p.publisher.failureTopics.retryTopic q with
          none | ⟨d', fetches, one', sameTopic, sameOffset⟩
        · left
          rw [none, List.map_nil]
        · right
          refine ⟨_, d', ?_, attempt.next accepted only accepting run noTopic noGroup few copied
            fetches sameTopic sameOffset⟩
          rw [one', List.map_singleton]

/-- In an attempt the event is offered to listeners of its group, topic and namespace only, with as
many failures counted as attempts were made before. -/
theorem IsAttempt.offered (accepted : p.workers = .ok workers) {others : World σ → World σ → Prop}
    (run : Pipeline.Runs World.host others (.start workers world) moves line)
    (retries : e.retries = none) {k j : Nat} {d : Delivery}
    (attempt : IsAttempt workers moves e group topic k j d) {m : Move (World σ) Consumer}
    (handled : m ∈ handling d (own j moves)) {name : String} {e' : Envelope}
    {result : Except Failure Unit} (offers : Occurrence.offered name e' result ∈ m.happened) :
    e' = e.attempt group topic k ∧ e'.retryCount.toNat = k ∧
      ∃ l ∈ p.registry.matching group topic e.ns, name = l.handler.name ∧
        ∃ log, l.handler.handle e' m.found = (result, m.left, log) := by
  obtain ⟨w, worker, -, routes⟩ := attempt.dispatched
  obtain ⟨s, -, makes⟩ := run.makes worker
  obtain ⟨made, c, held⟩ := mem_handling.mp handled
  obtain ⟨earlier, later, split⟩ := List.append_of_mem made
  obtain ⟨before, step⟩ := makes.before split
  obtain ⟨_, dispatch, -, dispatches⟩ := before.dispatches rfl held
  obtain ⟨c', d', r, ran, l, log, offering, next, rfl, rfl, answer⟩ := (does_step step).offered offers
  have same : d' = d := by
    rw [offering] at held
    cases held
    rfl
  subst same
  have routes' := dispatches.routes (congrArg Phase.routed? offering)
  cases routes'.unique routes
  have few : k ≤ 3 := attempt.few
  refine ⟨rfl, ?_, l, ?_, rfl, log, answer⟩
  · rw [Envelope.retryCount_attempt retries, UInt32.toNat_ofNat', Nat.mod_eq_of_lt (by omega)]
  · have listens := List.mem_of_getElem? next
    rw [listenersFor, (Plan.same_of_workers accepted (List.mem_of_getElem? worker)).1,
      Envelope.ns_attempt] at listens
    exact listens

end Chain

/-- A sum over generations is at most the number of those that are not empty, if none has more than
one element. -/
theorem length_flatMap_range_le {α : Type} {generation : Nat → List α} {first bound : Nat}
    (single : ∀ k, (generation k).length ≤ 1) (early : ∀ k, k < first → generation k = [])
    (late : ∀ k, bound ≤ k → generation k = []) (n : Nat) :
    ((List.range n).flatMap generation).length ≤ min n bound - first := by
  induction n with
  | zero => simp
  | succ n ih =>
    rw [List.range_succ, List.flatMap_append, List.flatMap_singleton, List.length_append]
    have one := single n
    by_cases tooEarly : n < first
    · rw [early n tooEarly, List.length_nil]
      omega
    · by_cases tooLate : bound ≤ n
      · rw [late n tooLate, List.length_nil]
        omega
      · omega

theorem length_flatMap_range_le_one {α : Type} {generation : Nat → List α} (only : Nat)
    (single : ∀ k, generation k = [] ∨ k = only ∧ ∃ a, generation k = [a]) (n : Nat) :
    ((List.range n).flatMap generation).length ≤ 1 := by
  have few : ∀ k, (generation k).length ≤ 1 := by
    intro k
    rcases single k with none | ⟨-, a, one⟩
    · rw [none]
      exact Nat.zero_le _
    · rw [one]
      exact Nat.le_refl _
  have nothing : ∀ k, k ≠ only → generation k = [] :=
    fun k other => (single k).resolve_right fun ⟨same, _⟩ => other same
  have total := length_flatMap_range_le few (fun k less => nothing k (Nat.ne_of_lt less))
    (fun k (greater : only + 1 ≤ k) => nothing k (Nat.ne_of_gt greater)) n
  omega

/-- Let a pipeline run whose handlers publish nothing, its workers taking turns in any way while
others add records to a broker that takes them all. The dispatches in one group that descend from a
record of an event without retry history are at most one in each generation and no more than
`maxFailures + 1` in all. The one with number `k` offers the event with `k` failures counted, and only
to listeners of that group, topic and namespace; the next one happens only if it failed. One record
at most is added to the dead-letter topic for all of them together, namely when the last attempt has
failed and its dispatch is finished, and it holds the event. -/
theorem retries_bounded {p : Plan (World σ)} {workers : List (Worker (World σ))}
    (accepted : p.workers = .ok workers) (sink : p.publisher.sink = World.sink)
    (handlers : ∀ a ∈ p.registry.accepted, ∀ e world,
      World.SameTopics world (a.listener.handler.handle e world).2.1)
    {world : World σ} (accepting : world.broker.refusing = [])
    {moves : List (Nat × Move (World σ) Consumer)} {line : Pipeline (World σ) Consumer}
    (run : Pipeline.Runs World.host World.Receives (.start workers world) moves line)
    {i : Nat} {group topic : String} (serves : p.registry.groups[i]? = some group)
    (subscribed : topic ∈ p.registry.topicsFor group) {offset : Nat} {r : Record}
    (holds : line.world.broker.Holds topic offset r) {bs : Octets} (payload : r.payload = some bs)
    {e : Envelope} (reads : Envelope.read bs = .ok e) (retries : e.retries = none)
    (noTopic : e.originTopic = none) (noGroup : e.originGroup = none) :
    let f := p.publisher.failureTopics
    let dispatches := descent f.retryTopic i p.registry.groups.length topic offset moves
    (∀ k, (dispatches k).length ≤ 1) ∧
    (∀ n, ((List.range n).flatMap dispatches).length ≤ maxFailures.toNat + 1) ∧
    (∀ k j d, (j, d) ∈ dispatches k → ∀ m ∈ handling d (own j moves), ∀ name e' result,
      Occurrence.offered name e' result ∈ m.happened →
        e' = e.attempt group topic k ∧ e'.retryCount.toNat = k ∧
          ∃ l ∈ p.registry.matching group topic e.ns, name = l.handler.name ∧
            ∃ log, l.handler.handle e' m.found = (result, m.left, log)) ∧
    (∀ k, dispatches (k + 1) ≠ [] → ∃ j d, (j, d) ∈ dispatches k ∧
      ∃ m ∈ handling d (own j moves), Fails m.happened) ∧
    (∀ n, ((List.range n).flatMap fun k => (dispatches k).flatMap fun (j, d) =>
      addedFor f.deadTopic d (own j moves)).length ≤ 1) ∧
    ∀ k j d, (j, d) ∈ dispatches k →
      (addedFor f.deadTopic d (own j moves) ≠ [] ↔
        k = maxFailures.toNat ∧ d ∈ finished (own j moves) ∧
          ∃ m ∈ handling d (own j moves), Fails m.happened) ∧
      ∀ q ∈ addedFor f.deadTopic d (own j moves), ∃ bs',
        line.world.broker.Holds f.deadTopic q ⟨d.keyText?, some bs'⟩ ∧
          Envelope.read bs' = .ok (e.attempt group topic k) := by
  intro f dispatches
  have only := onlyEscalates_of_workers accepted sink handlers
  have free := Plan.free_of_workers accepted subscribed
  have chain : IsChain workers moves e group topic dispatches :=
    isChain_descent accepted only accepting run serves subscribed holds payload reads retries noTopic
      noGroup
  have leaves : ∀ {k j d}, (j, d) ∈ dispatches k → Leaves f moves line e group topic k j d :=
    fun mem => (chain.attempt mem).leaves accepted only accepting run free retries
  refine ⟨chain.length_le_one, ?_, ?_, ?_, ?_,
    fun k j d mem => ⟨(leaves mem).dead_ne_nil_iff, ?_⟩⟩
  · intro n
    have total := length_flatMap_range_le chain.length_le_one
      (fun k less => absurd less k.not_lt_zero) chain.eq_nil_of_late n
    omega
  · intro k j d mem m handled name e' result offers
    exact (chain.attempt mem).offered accepted run retries handled offers
  · -- what is in the next generation was added while an event of this one was at hand
    intro k next
    obtain ⟨⟨j', d'⟩, further⟩ := List.exists_mem_of_ne_nil _ next
    obtain ⟨⟨j, d⟩, mem, descends⟩ := List.mem_flatMap.mp further
    obtain ⟨q, added, -⟩ := List.mem_flatMap.mp descends
    exact ⟨j, d, mem, (leaves mem).fails_of_added added⟩
  · intro n
    refine length_flatMap_range_le_one maxFailures.toNat ?_ n
    intro k
    rcases chain k with none | ⟨j, d, one, -⟩
    · left
      rw [none, List.flatMap_nil]
    · rw [one, List.flatMap_singleton]
      exact (leaves (one ▸ List.mem_singleton_self _)).dead_cases
  · intro q added
    obtain ⟨w, -, -, ⟨_, -, reads', -⟩⟩ := (chain.attempt mem).dispatched
    exact ⟨_, (leaves mem).holds_of_dead added, Envelope.read_payload_of_read reads'⟩

end Memory

/-! ### A handler that always fails -/

namespace Sample

open Memory

/-- A pipeline with the worker of the sample and its retry worker. -/
def plan : Plan (World Unit) := ⟨[], registry, publisher, .standard, .standard, .ofSecs 1⟩

def workers : List (Worker (World Unit)) :=
  [.business "billing" [] registry publisher .standard .standard,
    .retry [] registry publisher .standard .standard]

def line : Pipeline (World Unit) Consumer := .start workers world

/-- The turns in which the message is dispatched and then retried three times. -/
def schedule : List Nat := List.replicate 7 0 ++ List.replicate 19 1

/-- The generations of dispatches that descend from the message. -/
def generation : Nat → List (Nat × Delivery) :=
  descent "shop_failure_topic" 0 1 "orders" 0 (line.trace World.host schedule)

end Sample

namespace Memory

/-- The event of the sample is dispatched four times, and no more often. -/
theorem sample_retries_bounded : Sample.generation 3 ≠ [] ∧
    ∀ n, ((List.range n).flatMap Sample.generation).length ≤ 4 := by
  have begun : Pipeline.Runs World.host World.Receives (.start Sample.workers Sample.world) []
      Sample.line := .start
  obtain ⟨run, -⟩ := begun.exec Sample.schedule
  have handlers : ∀ a ∈ Sample.plan.registry.accepted, ∀ e world,
      World.SameTopics world (a.listener.handler.handle e world).2.1 := by
    intro a accepted e world
    cases List.mem_singleton.mp accepted
    exact .refl _
  have holds : (Sample.line.exec World.host Sample.schedule).1.world.broker.Holds "orders" 0
      ⟨none, Sample.message.payload⟩ := by
    unfold Broker.Holds
    decide +kernel
  obtain ⟨-, total, -⟩ := @retries_bounded _ Sample.plan Sample.workers rfl rfl handlers _ rfl _ _ run
    0 "billing" "orders" rfl (by decide) 0 _ holds _ rfl .blank rfl rfl rfl rfl
  exact ⟨by decide +kernel, total⟩

end Memory

end EventPipeline
