import EventPipeline.Proofs.Memory.Fate
import EventPipeline.Proofs.Memory.Recovery

/-! # Workers follow their agendas

A worker whose group nobody else commits for fetches the messages of its agenda one after another: what
it has fetched and what remains are always the agenda together. A worker whose group has got to the end
of its topics has therefore fetched its whole agenda, and nothing is left at hand.
-/

namespace EventPipeline.Memory

open Worker

variable {σ : Type}

/-- How far a worker has read a topic: as far as its group has got, and one further in the topic of the
message at hand. -/
def readTo (w : Worker (World σ)) (b : Broker) (phase : Phase Consumer) (topic : String) : Nat :=
  b.reached w.group topic + if phase.held?.any fun x => x.2.topic == topic then 1 else 0

/-- The messages that a worker has still to fetch. -/
def remaining (w : Worker (World σ)) (b : Broker) (phase : Phase Consumer) : List Delivery :=
  (Names.ofList w.topics).flatMap fun topic => b.messages topic (readTo w b phase topic)

section Reading

variable {w : Worker (World σ)} {b b' : Broker} {phase phase' : Phase Consumer} {topic : String}

theorem readTo_of_held {c : Consumer} {d : Delivery} (held : phase.held? = some (c, d)) :
    readTo w b phase d.topic = b.reached w.group d.topic + 1 := by
  simp [readTo, held]

theorem readTo_of_elsewhere (elsewhere : ∀ c d, phase.held? = some (c, d) → d.topic ≠ topic) :
    readTo w b phase topic = b.reached w.group topic := by
  cases held : phase.held? with
  | none => simp [readTo, held]
  | some x => simp [readTo, held, elsewhere x.1 x.2 held]

theorem readTo_of_unheld (unheld : phase.held? = none) (topic : String) :
    readTo w b phase topic = b.reached w.group topic :=
  readTo_of_elsewhere fun c d held => absurd held (Phase.held?_ne_of_unheld unheld (c, d))

theorem remaining_congr (records : ∀ topic ∈ w.topics, b'.records topic = b.records topic)
    (read : ∀ topic, readTo w b' phase' topic = readTo w b phase topic) :
    remaining w b' phase' = remaining w b phase := by
  apply List.flatMap_congr
  intro topic mem
  rw [read, Broker.messages_congr (records topic (Names.mem_ofList.mp mem))]

theorem readTo_congr (held : phase'.held? = phase.held?)
    (reached : b'.reached w.group topic = b.reached w.group topic) :
    readTo w b' phase' topic = readTo w b phase topic := by
  rw [readTo, readTo, held, reached]

/-- A worker's consumer stands where the worker has read to. -/
theorem Stands.position_eq (stands : Stands w.group b phase) {c : Consumer}
    (consumer : phase.consumer? = some c) (topic : String) :
    c.position b topic = readTo w b phase topic := by
  by_cases here : ∃ c d, phase.held? = some (c, d) ∧ d.topic = topic
  · obtain ⟨c', d, held, rfl⟩ := here
    obtain rfl : c' = c := Option.some.inj ((Phase.consumer?_of_held? held).symm.trans consumer)
    rw [readTo_of_held held]
    exact (stands.held c' d held).2.2
  · have elsewhere : ∀ c d, phase.held? = some (c, d) → d.topic ≠ topic :=
      fun c d held same => here ⟨c, d, held, same⟩
    rw [readTo_of_elsewhere elsewhere]
    exact stands.idle c consumer topic fun d held => elsewhere c d held

/-- What remains to a worker is what its consumer has before it. -/
theorem Stands.remaining_eq (stands : Stands w.group b phase) {c : Consumer}
    (consumer : phase.consumer? = some c) :
    remaining w b phase = c.ahead b (Names.ofList w.topics) := by
  apply List.flatMap_congr
  intro topic _
  rw [stands.position_eq consumer]

/-- The message at hand stands where the group has got, so the group can go one further. -/
theorem Stands.reached_lt (stands : Stands w.group b phase) {c : Consumer} {d : Delivery}
    (held : phase.held? = some (c, d)) : b.reached w.group d.topic < b.nextOffset d.topic := by
  obtain ⟨⟨offset, r, placed, holds, -⟩, reached, -⟩ := stands.held c d held
  have less := holds.lt
  omega

/-- What a commit adds to where the group has got it takes from the message at hand. -/
theorem Stands.readTo_settled (stands : Stands w.group b phase) {c : Consumer} {d : Delivery}
    (held : phase.held? = some (c, d)) (unheld : phase'.held? = none)
    (broker : b' = b.commit w.group d.topic d.offset) (topic : String) :
    readTo w b' phase' topic = readTo w b phase topic := by
  rw [readTo_of_unheld unheld, broker]
  by_cases same : topic = d.topic
  · subst same
    rw [reached_settled (stands.held c d held).2.1, readTo_of_held held]
  · rw [reached_settled_of_ne w.group b same, readTo_of_elsewhere]
    intro c' d' held'
    rw [held] at held'
    cases held'
    exact Ne.symm same

/-- A worker has not read further than to the end of a topic if its group has not got further. -/
theorem Stands.readTo_le (stands : Stands w.group b phase)
    (bounded : b.reached w.group topic ≤ b.nextOffset topic) :
    readTo w b phase topic ≤ b.nextOffset topic := by
  by_cases here : ∃ c d, phase.held? = some (c, d) ∧ d.topic = topic
  · obtain ⟨c, d, held, rfl⟩ := here
    rw [readTo_of_held held]
    exact stands.reached_lt held
  · rw [readTo_of_elsewhere fun c d held same => here ⟨c, d, held, same⟩]
    exact bounded

end Reading

/-! ### What others do -/

/-- Others have left the group of this worker where it was and its topics as they were, or the worker
reads one topic only, from within its log, and others have added a record to it. -/
structure Spared (w : Worker (World σ)) (start : Broker) (world world' : World σ) : Prop where
  grows : world.broker.Grows world'.broker
  commits : ∀ topic, world'.broker.committed? w.group topic = world.broker.committed? w.group topic
  logs : (∀ topic ∈ w.topics, world'.broker.records topic = world.broker.records topic) ∨
    ∃ topic r, w.topics = [topic] ∧ start.reached w.group topic ≤ world.broker.nextOffset topic ∧
      world'.broker.records topic = world.broker.records topic ++ [r]

namespace Spared

variable {w : Worker (World σ)} {start : Broker} {world world' : World σ}

theorem of_sameLogs (same : world.SameLogs world') : Spared w start world world' := by
  refine ⟨Broker.grows_of_arrivals_eq same.arrivals, fun topic => ?_, .inl fun topic _ => ?_⟩
  · exact Broker.committed?_congr same.offsets w.group topic
  · exact Broker.records_congr same.arrivals topic

theorem reached_eq (spared : Spared w start world world') (topic : String) :
    world'.broker.reached w.group topic = world.broker.reached w.group topic :=
  Broker.reached_congr (spared.commits topic)

theorem spares (spared : Spared w start world world') : world.Spares w.group world' :=
  ⟨spared.grows, spared.reached_eq⟩

/-- What others add to a worker's topic is added to its agenda and to what remains. -/
theorem exists_added (spared : Spared w start world world') {phase phase' : Phase Consumer}
    (held : phase'.held? = phase.held?) (stands : Stands w.group world.broker phase)
    (bounded : ∀ topic, world.broker.reached w.group topic ≤
      max (start.reached w.group topic) (world.broker.nextOffset topic)) :
    ∃ added, agenda w start world'.broker = agenda w start world.broker ++ added ∧
      remaining w world'.broker phase' = remaining w world.broker phase ++ added := by
  have same : ∀ topic, readTo w world'.broker phase' topic = readTo w world.broker phase topic :=
    fun topic => readTo_congr held (spared.reached_eq topic)
  rcases spared.logs with kept | ⟨topic, r, single, inside, added⟩
  · refine ⟨[], ?_, ?_⟩
    · rw [List.append_nil, agenda_congr kept]
    · rw [List.append_nil, remaining_congr kept same]
  · have here : Names.ofList w.topics = [topic] := by
      rw [single]
      rfl
    have within := stands.readTo_le (Nat.le_trans (bounded topic)
      (Nat.max_le.mpr ⟨inside, Nat.le_refl _⟩))
    -- the worker has read at most to the end, so the new record is the last in both lists
    refine ⟨[r.message topic (world.broker.nextOffset topic)], ?_, ?_⟩
    · rw [agenda, agenda, here, List.flatMap_singleton, List.flatMap_singleton,
        Broker.messages_append added inside]
    · rw [remaining, remaining, here, List.flatMap_singleton, List.flatMap_singleton, same,
        Broker.messages_append added within]

end Spared

/-! ### What a worker does -/

/-- A worker follows its agenda: what it has fetched and what remains are the agenda together, its
group has not passed the end of a topic, and what the group has committed it has committed by going
on. -/
structure Follows (w : Worker (World σ)) (start : Broker) (world : World σ)
    (moves : List (Move (World σ) Consumer)) (s : WorkerState Consumer) : Prop where
  stands : Stands w.group world.broker s.phase
  serves : ∀ c, s.phase.consumer? = some c → c.Serves w fun _ => 0
  course : fetched moves ++ remaining w world.broker s.phase = agenda w start world.broker
  bounded : ∀ topic, world.broker.reached w.group topic ≤
    max (start.reached w.group topic) (world.broker.nextOffset topic)
  advanced : ∀ topic,
    world.broker.committed? w.group topic = start.committed? w.group topic ∨
      topic ∈ w.topics ∧ start.reached w.group topic < world.broker.reached w.group topic

namespace Follows

variable {w : Worker (World σ)} {start : Broker} {world world' : World σ}
  {moves moves' : List (Move (World σ) Consumer)} {s s' : WorkerState Consumer}

theorem begins (w : Worker (World σ)) (world : World σ) :
    Follows w world.broker world [] .initial := by
  refine ⟨.unopened .., fun _ => nofun, ?_, fun topic => Nat.le_max_left .., fun _ => .inl rfl⟩
  apply List.flatMap_congr
  intro topic _
  rw [readTo_of_unheld rfl]

/-- A worker goes on following its agenda when its topics are at most added to. -/
theorem goes (follows : Follows w start world moves s) (spared : Spared w start world world')
    (fetches : fetched moves' = fetched moves) (held : s'.phase.held? = s.phase.held?)
    (stands : Stands w.group world'.broker s'.phase)
    (serves : ∀ c, s'.phase.consumer? = some c → c.Serves w fun _ => 0) :
    Follows w start world' moves' s' := by
  refine ⟨stands, serves, ?_, ?_, ?_⟩
  · obtain ⟨added, agenda, remaining⟩ := spared.exists_added held follows.stands follows.bounded
    rw [fetches, agenda, remaining, ← List.append_assoc, follows.course]
  · intro topic
    have before := follows.bounded topic
    have grown := spared.grows.nextOffset_le topic
    rw [spared.reached_eq]
    omega
  · intro topic
    rw [spared.commits, spared.reached_eq]
    exact follows.advanced topic

/-- A worker goes on following its agenda when others do something. -/
theorem spared (follows : Follows w start world moves s) (spared : Spared w start world world') :
    Follows w start world' moves s :=
  follows.goes spared rfl rfl (follows.stands.spares spared.spares rfl rfl) follows.serves

/-- A message that is fetched is the first of those that remain. -/
theorem fetches (follows : Follows w start world moves s) {c c' : Consumer} {d : Delivery}
    (waiting : s.phase = .waiting c) (received : s'.phase = .received c' d)
    (found : c.next world.broker c.topics = (some d, c'))
    (last : fetched moves' = fetched moves ++ [d]) : Follows w start world moves' s' := by
  have consumer : s.phase.consumer? = some c := congrArg Phase.consumer? waiting
  have consumer' : s'.phase.consumer? = some c' := congrArg Phase.consumer? received
  have serves := follows.serves c consumer
  have stands : Stands w.group world.broker s'.phase := by
    have before := follows.stands
    rw [waiting] at before
    rw [received]
    exact before.fetched found
  have first : remaining w world.broker s.phase = d :: remaining w world.broker s'.phase := by
    rw [follows.stands.remaining_eq consumer, stands.remaining_eq consumer']
    rw [serves.topics] at found
    exact Consumer.ahead_of_next_some (Names.nodup_ofList _) found
  refine ⟨stands, ?_, ?_, follows.bounded, follows.advanced⟩
  · intro c'' known
    rw [consumer'] at known
    cases known
    exact serves.next (fun _ => Nat.zero_le _) found
  · rw [last, List.append_assoc, List.singleton_append, ← first, follows.course]

/-- A group does not go back behind where it had got at the start. -/
theorem start_le (follows : Follows w start world moves s) (topic : String) :
    start.reached w.group topic ≤ world.broker.reached w.group topic := by
  rcases follows.advanced topic with unmoved | ⟨-, moved⟩
  · exact Nat.le_of_eq (Broker.reached_congr unmoved).symm
  · exact Nat.le_of_lt moved

/-- A commit moves the group to where the worker has read to. -/
theorem settles (follows : Follows w start world moves s) {c : Consumer} {d : Delivery}
    {outcome : Outcome} (settling : s.phase = .settling c d outcome)
    (unheld : s'.phase.held? = none)
    (broker : world'.broker = world.broker.commit w.group d.topic d.offset)
    (subscribed : d.topic ∈ w.topics) (fetches : fetched moves' = fetched moves)
    (stands : Stands w.group world'.broker s'.phase)
    (serves : ∀ c, s'.phase.consumer? = some c → c.Serves w fun _ => 0) :
    Follows w start world' moves' s' := by
  have held : s.phase.held? = some (c, d) := congrArg Phase.held? settling
  have here : world'.broker.reached w.group d.topic = world.broker.reached w.group d.topic + 1 := by
    rw [broker, reached_settled (follows.stands.held c d held).2.1]
  have elsewhere : ∀ topic, topic ≠ d.topic →
      world'.broker.committed? w.group topic = world.broker.committed? w.group topic :=
    fun _ other => broker ▸ Broker.committed?_commit_of_topic_ne _ _ other
  have logs : ∀ topic, world'.broker.records topic = world.broker.records topic :=
    fun _ => broker ▸ rfl
  refine ⟨stands, serves, ?_, ?_, ?_⟩
  · have reading := follows.stands.readTo_settled held unheld broker
    rw [fetches, agenda_congr fun topic _ => logs topic,
      remaining_congr (fun topic _ => logs topic) reading, follows.course]
  · intro topic
    have next : world'.broker.nextOffset topic = world.broker.nextOffset topic :=
      congrArg List.length (logs topic)
    rw [next]
    by_cases same : topic = d.topic
    · subst same
      have inside := follows.stands.reached_lt held
      omega
    · rw [Broker.reached_congr (elsewhere topic same)]
      exact follows.bounded topic
  · intro topic
    by_cases same : topic = d.topic
    · subst same
      have onward := follows.start_le d.topic
      refine .inr ⟨subscribed, ?_⟩
      omega
    · rw [elsewhere topic same, Broker.reached_congr (elsewhere topic same)]
      exact follows.advanced topic

/-- What a worker has at hand is a message of its topics. -/
theorem subscribed (follows : Follows w start world moves s)
    (run : w.Makes World.host .initial moves s) {c : Consumer} {d : Delivery}
    (held : s.phase.held? = some (c, d)) : d.topic ∈ w.topics := by
  have mem : d ∈ agenda w start world.broker := by
    rw [← follows.course]
    exact List.mem_append_left _ (run.mem_fetched_of_held rfl held)
  exact (mem_agenda.mp mem).1

/-- A worker follows its agenda with each step of its own. -/
theorem step (follows : Follows w start world moves s) (run : w.Makes World.host .initial moves s)
    {happened : List Occurrence} (made : w.step World.host s world = (s', world', happened))
    (spared : s.phase.IsOpen → Spared w start world world') :
    Follows w start world' (moves ++ [⟨s, world, s', world', happened⟩]) s' := by
  have works := works_of_does (does_step made)
  have stands := works.stands (fun unfinished => (spared unfinished).spares) follows.stands
  have serves := works.serves (fun _ => Nat.zero_le _) follows.serves
  have fetches : s'.phase.fetched? = none →
      fetched (moves ++ [⟨s, world, s', world', happened⟩]) = fetched moves :=
    fun unfetched => fetched_snoc_of_unfetched unfetched moves
  cases works with
  | opened unopened opened =>
    refine follows.goes (.of_sameLogs ⟨rfl, rfl, rfl⟩) (fetches ?_) ?_ stands serves
    · rw [opened]
      rfl
    · rw [opened, unopened]
      rfl
  | ended unheld ended same =>
    refine follows.goes (.of_sameLogs same) (fetches ?_) ?_ stands serves
    · rw [ended]
      rfl
    · rw [ended, unheld]
      rfl
  | looked unheld unheld' _ _ _ same =>
    exact follows.goes (.of_sameLogs same) (fetches (Phase.fetched?_of_unheld unheld'))
      (unheld'.trans unheld.symm) stands serves
  | fetched waiting received found same =>
    refine (follows.fetches waiting received found ?_).spared (.of_sameLogs same)
    rw [fetched_snoc, received]
    rfl
  | dispatched unfinished held unfetched =>
    exact follows.goes (spared unfinished) (fetches unfetched) held stands serves
  | @settled _ _ _ c d outcome settling further broker =>
    have ours : c.group = w.group := follows.stands.ours c (congrArg Phase.consumer? settling)
    have unheld : s'.phase.held? = none := by
      rcases further with checking | ⟨exit, ended⟩
      · rw [checking]
        rfl
      · rw [ended]
        rfl
    exact follows.settles settling unheld (ours ▸ broker)
      (follows.subscribed run (congrArg Phase.held? settling))
      (fetches (Phase.fetched?_of_unheld unheld)) stands serves

/-- A worker whose group has got to the end of its topics has nothing at hand and has fetched its whole
agenda. -/
theorem of_allRead (follows : Follows w start world moves s)
    (run : w.Makes World.host .initial moves s)
    (allRead : ∀ topic ∈ w.topics,
      world.broker.nextOffset topic ≤ world.broker.reached w.group topic) :
    s.phase.held? = none ∧ fetched moves = agenda w start world.broker := by
  have unheld : s.phase.held? = none := by
    cases held : s.phase.held? with
    | none => rfl
    | some x =>
      obtain ⟨c, d⟩ := x
      have less := follows.stands.reached_lt held
      have all := allRead d.topic (follows.subscribed run held)
      omega
  have nothing : remaining w world.broker s.phase = [] := by
    rw [remaining, List.flatMap_eq_nil_iff]
    intro topic mem
    rw [Broker.messages_eq_nil_iff, readTo_of_unheld unheld]
    exact allRead topic (Names.mem_ofList.mp mem)
  refine ⟨unheld, ?_⟩
  rw [← follows.course, nothing, List.append_nil]

/-- Where a group has got that has got to the end of a topic. -/
theorem reached_eq (follows : Follows w start world moves s) {topic : String}
    (allRead : world.broker.nextOffset topic ≤ world.broker.reached w.group topic) :
    world.broker.reached w.group topic =
      max (start.reached w.group topic) (world.broker.nextOffset topic) := by
  have bounded := follows.bounded topic
  have onward := follows.start_le topic
  omega

end Follows

/-! ### All workers of a pipeline -/

/-- The worker reads off the retry path, or it reads the retry topic from within its log. -/
def ReadsWithin (f : FailureTopics) (start : Broker) (w : Worker (World σ)) : Prop :=
  (∀ topic ∈ w.topics, f.isReservedTopic topic = false) ∨
    w.topics = [f.retryTopic] ∧ start.reached w.group f.retryTopic ≤ start.nextOffset f.retryTopic

theorem Spared.of_append {f : FailureTopics} {w : Worker (World σ)} {start : Broker}
    {world world' : World σ} (reads : ReadsWithin f start w)
    (grown : start.Grows world.broker) {topic : String} {r : Record}
    (reserved : f.isReservedTopic topic = true)
    (append : world'.broker = world.broker.append topic r) : Spared w start world world' := by
  have other : ∀ topic', topic' ≠ topic →
      world'.broker.records topic' = world.broker.records topic' := by
    intro topic' differ
    rw [append, Broker.records_append_of_ne _ _ differ]
  refine ⟨append ▸ Broker.grows_append .., fun _ => append ▸ rfl, ?_⟩
  rcases reads with free | ⟨single, inside⟩
  · left
    intro topic' subscribed
    apply other
    rintro rfl
    rw [free topic' subscribed] at reserved
    cases reserved
  · by_cases retry : topic = f.retryTopic
    · subst retry
      refine .inr ⟨_, r, single, Nat.le_trans inside (grown.nextOffset_le _), ?_⟩
      rw [append, Broker.records_append_self]
    · left
      intro topic' subscribed
      rw [single] at subscribed
      rw [List.mem_singleton.mp subscribed]
      exact other _ (Ne.symm retry)

/-- A step of a dispatch changes no log or commit, or it adds a record on the retry path. -/
theorem Obeys.sameLogs_or_append {rules : Rules σ} {w : Worker (World σ)} (obeys : Obeys rules w)
    {s s' : WorkerState Consumer} {world world' : World σ} {happened : List Occurrence}
    (does : Does World.host w s world s' world' happened) (unfinished : s.phase.IsOpen) :
    world.SameLogs world' ∨ ∃ topic r, w.failureTopics.isReservedTopic topic = true ∧
      world'.broker = world.broker.append topic r := by
  have same : world.SameLogs world := ⟨rfl, rfl, rfl⟩
  have quietly := obeys.quietly
  cases does <;> first
    | exact unfinished.elim
    | exact .inl same
    | skip
  case accepted next answer => exact .inl (obeys.of_handle next answer).1
  case failed next answer => exact .inl (obeys.of_handle next answer).1
  case escalated path _ _ _ planned answer =>
    refine .inr ⟨_, _, ?_, quietly.append_of_produce answer⟩
    cases path <;> simp [Publisher.record, FailureTopics.topicOf, FailureTopics.isReservedTopic]
  case notEscalated answer =>
    obtain rfl := quietly.eq_of_refused answer
    exact .inl same
  case buried answer =>
    refine .inr ⟨_, _, ?_, quietly.append_of_produce answer⟩
    simp [Publisher.record, FailureTopics.isReservedTopic]
  case notBuried answer =>
    obtain rfl := quietly.eq_of_refused answer
    exact .inl same

section Run

variable {rules : Rules σ} {p : Plan (World σ)} {workers : List (Worker (World σ))} {world : World σ}
  {others : World σ → World σ → Prop} {moves : List (Nat × Move (World σ) Consumer)}
  {line : Pipeline (World σ) Consumer}

theorem obeys_of_workers (accepted : p.workers = .ok workers)
    (sink : p.publisher.sink = World.sink)
    (handlers : ∀ a ∈ p.registry.accepted, ∀ e world,
      World.SameLogs world (a.listener.handler.handle e world).2.1)
    (decided : ∀ a ∈ p.registry.accepted, ∀ e world,
      (a.listener.handler.handle e world).1.isOk = rules.succeeds a.listener.handler e) :
    ∀ w ∈ workers, Obeys rules w := by
  intro w worker
  obtain ⟨registry, publisher⟩ := Plan.same_of_workers accepted worker
  exact ⟨publisher ▸ sink, registry ▸ handlers, registry ▸ decided⟩

/-- If the group of the retry worker has not got beyond the end of its topic, every worker reads within
its logs. -/
theorem readsWithin_of_workers (accepted : p.workers = .ok workers) {start : Broker}
    (inside : start.reached p.publisher.failureTopics.retryGroup p.publisher.failureTopics.retryTopic ≤
      start.nextOffset p.publisher.failureTopics.retryTopic) {w : Worker (World σ)}
    (worker : w ∈ workers) : ReadsWithin p.publisher.failureTopics start w := by
  rcases (Plan.mem_workers accepted).mp worker with ⟨group, registered, rfl⟩ | rfl
  · exact .inl fun topic subscribed => (Plan.free_of_workers accepted subscribed).2
  · exact .inr ⟨rfl, inside⟩

/-- A step of one worker spares every other worker, and a dispatch spares all of them. -/
theorem spared_of_step {f : FailureTopics} {w w' : Worker (World σ)} (obeys : Obeys rules w')
    (names : w'.failureTopics = f) {start : Broker} (reads : ReadsWithin f start w)
    (grown : start.Grows world.broker) {s s' : WorkerState Consumer} {world' : World σ}
    {happened : List Occurrence} (does : Does World.host w' s world s' world' happened)
    (ours : ∀ c, s.phase.consumer? = some c → c.group = w'.group)
    (apart : s.phase.IsOpen ∨ w.group ≠ w'.group) : Spared w start world world' := by
  by_cases unfinished : s.phase.IsOpen
  · rcases obeys.sameLogs_or_append does unfinished with same | ⟨topic, r, reserved, append⟩
    · exact .of_sameLogs same
    · rw [names] at reserved
      exact .of_append reads grown reserved append
  · rcases (works_of_does does).sameLogs_or_settled unfinished with
      same | ⟨c, d, outcome, settling, broker⟩
    · exact .of_sameLogs same
    · have other : w.group ≠ c.group := by
        rw [ours c (congrArg Phase.consumer? settling)]
        exact apart.resolve_left unfinished
      refine ⟨broker ▸ .refl _, fun topic => ?_, .inl fun topic _ => broker ▸ rfl⟩
      exact broker ▸ Broker.committed?_commit_of_group_ne _ _ other

/-- Every worker of a pipeline follows its agenda. -/
theorem follows_of_runs (accepted : p.workers = .ok workers) (obeys : ∀ w ∈ workers, Obeys rules w)
    (inside : world.broker.reached p.publisher.failureTopics.retryGroup
      p.publisher.failureTopics.retryTopic ≤
        world.broker.nextOffset p.publisher.failureTopics.retryTopic)
    (spare : ∀ before after, others before after → before.SameLogs after)
    (run : Pipeline.Runs World.host others (.start workers world) moves line) {i : Nat}
    {w : Worker (World σ)} (worker : workers[i]? = some w) :
    ∃ s, line.crew[i]? = some (w, s) ∧ w.Makes World.host .initial (own i moves) s ∧
      Follows w world.broker line.world (own i moves) s := by
  induction run generalizing i w with
  | start => exact ⟨.initial, by simp [Pipeline.start, worker], .start, .begins w world⟩
  | @moved moves line j w' s' s'' world' happened earlier chosen made ih =>
    have worker' := earlier.worker_of_mem chosen
    have member := List.mem_of_getElem? worker'
    obtain ⟨grown, -⟩ := advances_of_runs (fun w mem => (obeys w mem).quietly)
      (earlier.mono fun before after change => (spare before after change).quiet)
    obtain ⟨_, present', makes', follows'⟩ := ih worker'
    rw [chosen] at present'
    cases present'
    have spared : s'.phase.IsOpen ∨ w.group ≠ w'.group →
        Spared w world.broker line.world world' :=
      spared_of_step (obeys w' member) (failureTopics_of_workers accepted member)
        (readsWithin_of_workers accepted inside (List.mem_of_getElem? worker)) grown.grows
        (does_step made) follows'.stands.ours
    -- the worker that moves goes on by its step, and every other one is spared by it
    by_cases same : j = i
    · subst same
      rw [worker'] at worker
      cases worker
      refine ⟨s'', List.getElem?_set_self (List.getElem?_eq_some_iff.mp chosen).1, ?_, ?_⟩
      · rw [own_snoc_self]
        exact makes'.step made
      · rw [own_snoc_self]
        exact follows'.step makes' made fun unfinished => spared (.inl unfinished)
    · obtain ⟨s, present, makes, follows⟩ := ih worker
      have other := Plan.group_ne_of_workers accepted worker worker' (Ne.symm same)
      refine ⟨s, ?_, ?_, ?_⟩
      · rw [List.getElem?_set_ne same, present]
      · rw [own_snoc_of_ne same]
        exact makes
      · rw [own_snoc_of_ne same]
        exact follows.spared (spared (.inr other))
  | changed _ change ih =>
    obtain ⟨s, present, makes, follows⟩ := ih worker
    exact ⟨s, present, makes, follows.spared (.of_sameLogs (spare _ _ change))⟩

end Run

end EventPipeline.Memory
