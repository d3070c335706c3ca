import EventPipeline.Proofs.Memory.Broker
import EventPipeline.Proofs.Worker.Life

/-! # Workers on a broker in memory

`Works` says what a step of a worker is to its consumer and to the broker in memory. It follows,
whatever happens to the world between the steps, that each message a worker fetches from a topic has
a greater offset than all that it fetched from there before.
-/

namespace EventPipeline

/-- The consumer that a worker has open. -/
def Phase.consumer? {κ : Type} : Phase κ → Option κ
  | .checking c | .waiting c | .received c _ | .offering c _ _ _ | .failing c _ _ | .orphaned c _ _
  | .settling c _ _ | .leaving c _ => some c
  | .unopened | .ended _ => none

theorem Phase.consumer?_of_held? {κ : Type} {phase : Phase κ} {c : κ} {d : Delivery}
    (held : phase.held? = some (c, d)) : phase.consumer? = some c := by
  cases phase <;> cases held <;> rfl

namespace Memory

variable {σ : Type}

namespace World

/-- The broker has the same records and commits, and refuses the same topics. -/
structure SameLogs (world world' : World σ) : Prop where
  arrivals : world'.broker.arrivals = world.broker.arrivals
  offsets : world'.broker.offsets = world.broker.offsets
  refusing : world'.broker.refusing = world.broker.refusing

/-- A poll answers the next message, or none, or an error that was arranged. -/
theorem poll_cases {c c' : Consumer} {timeout : Duration} {world world' : World σ}
    {answer : Except BrokerError (Option Delivery)} {log : List LogEntry}
    (polled : World.host.poll c timeout world = ((answer, c'), world', log)) :
    world.SameLogs world' ∧
      ((∃ e, answer = .error e ∧ c' = c) ∨
        ∃ d?, answer = .ok d? ∧ c.next world.broker c.topics = (d?, c')) := by
  rcases world.broker.takeError_cases c.group with taken | ⟨e, rest, -, taken⟩ <;>
    simp only [host, onBroker, Consumer.poll, taken] at polled <;> cases polled
  · exact ⟨⟨rfl, rfl, rfl⟩, .inr ⟨_, rfl, rfl⟩⟩
  · exact ⟨⟨rfl, rfl, rfl⟩, .inl ⟨e, rfl, rfl⟩⟩

/-- A poll that answers no message leaves the consumer where it was. -/
theorem looked_of_poll {c c' : Consumer} {timeout : Duration} {world world' : World σ}
    {answer : Except BrokerError (Option Delivery)} {log : List LogEntry}
    (polled : World.host.poll c timeout world = ((answer, c'), world', log))
    (nothing : ∀ d, answer ≠ .ok (some d)) :
    world.SameLogs world' ∧ Consumer.Looked world.broker c c' := by
  obtain ⟨same, ⟨e, -, rfl⟩ | ⟨d?, rfl, next⟩⟩ := poll_cases polled
  · exact ⟨same, .refl ..⟩
  · rcases c.next_cases world.broker c.topics with ⟨c'', none, looked⟩ | ⟨d, _, -, -, found⟩
    · rw [next] at none
      cases none
      exact ⟨same, looked⟩
    · rw [next] at found
      cases found
      exact absurd rfl (nothing d)

theorem commit_cases {c c' : Consumer} {d : Delivery} {world world' : World σ}
    {answer : Except BrokerError Unit} {log : List LogEntry}
    (committed : World.host.commit c d world = ((answer, c'), world', log)) :
    answer = .ok () ∧ c' = c ∧ world'.broker = world.broker.commit c.group d.topic d.offset := by
  cases committed
  exact ⟨rfl, rfl, rfl⟩

theorem connect_cases {s : Subscription} {c : Consumer} {world world' : World σ}
    {log : List LogEntry} (connected : World.host.connect s world = (.ok c, world', log)) :
    c = ⟨s.group, Names.ofList s.topics, []⟩ ∧ world' = world := by
  simp only [host, onBroker, Consumer.connect] at connected
  split at connected
  · cases connected
  · cases connected
    exact ⟨rfl, rfl⟩

theorem connect_same {s : Subscription} {answer : Except BrokerError Consumer}
    {world world' : World σ} {log : List LogEntry}
    (connected : World.host.connect s world = (answer, world', log)) : world.SameLogs world' := by
  simp only [host, onBroker, Consumer.connect] at connected
  split at connected <;> cases connected <;> exact ⟨rfl, rfl, rfl⟩

/-- A record that is produced is refused by its topic or added to its log. -/
theorem produce_cases {record : Outgoing} {world world' : World σ}
    {answer : Except BrokerError Unit} {log : List LogEntry}
    (produced : World.sink.produce record world = (answer, world', log)) :
    (world.broker.refusing.contains record.topic = true ∧ (∃ e, answer = .error e) ∧
        world' = world) ∨
      (world.broker.refusing.contains record.topic = false ∧ answer = .ok () ∧
        world' = { world with
          broker := world.broker.append record.topic ⟨record.key, some record.payload⟩ }) := by
  simp only [sink, onBroker, Broker.produce] at produced
  split at produced
  · next refuses =>
    cases produced
    exact .inl ⟨refuses, ⟨_, rfl⟩, rfl⟩
  · next takes =>
    cases produced
    exact .inr ⟨Bool.eq_false_iff.mpr takes, rfl, rfl⟩

end World

/-! ### Steps -/

open Worker

/-- What a step of a worker is to its consumer. -/
inductive Works (w : Worker (World σ)) :
    WorkerState Consumer → World σ → WorkerState Consumer → World σ → Prop where
  | opened {s s' : WorkerState Consumer} {world : World σ} (unopened : s.phase = .unopened)
    (opened : s'.phase = .checking ⟨w.group, Names.ofList w.topics, []⟩) : Works w s world s' world
  | ended {s s' : WorkerState Consumer} {world world' : World σ} {exit : Exit}
    (unheld : s.phase.held? = none) (ended : s'.phase = .ended exit)
    (same : world.SameLogs world') : Works w s world s' world'
  | looked {s s' : WorkerState Consumer} {world world' : World σ} {c c' : Consumer}
    (unheld : s.phase.held? = none) (unheld' : s'.phase.held? = none)
    (consumer : s.phase.consumer? = some c) (consumer' : s'.phase.consumer? = some c')
    (looked : Consumer.Looked world.broker c c') (same : world.SameLogs world') :
    Works w s world s' world'
  | fetched {s s' : WorkerState Consumer} {world world' : World σ} {c c' : Consumer}
    {d : Delivery} (waiting : s.phase = .waiting c) (received : s'.phase = .received c' d)
    (found : c.next world.broker c.topics = (some d, c')) (same : world.SameLogs world') :
    Works w s world s' world'
  | dispatched {s s' : WorkerState Consumer} {world world' : World σ}
    (unfinished : s.phase.IsOpen) (held : s'.phase.held? = s.phase.held?)
    (unfetched : s'.phase.fetched? = none) : Works w s world s' world'
  | settled {s s' : WorkerState Consumer} {world world' : World σ} {c : Consumer} {d : Delivery}
    {outcome : Outcome} (settling : s.phase = .settling c d outcome)
    (further : s'.phase = .checking c ∨ ∃ exit, s'.phase = .ended exit)
    (broker : world'.broker = world.broker.commit c.group d.topic d.offset) :
    Works w s world s' world'

theorem works_of_does {w : Worker (World σ)} {s s' : WorkerState Consumer}
    {world world' : World σ} {happened : List Occurrence}
    (does : Does World.host w s world s' world' happened) : Works w s world s' world' := by
  cases does
  case connected answer =>
    obtain ⟨rfl, rfl⟩ := World.connect_cases answer
    exact .opened rfl rfl
  case refused answer => exact .ended rfl rfl (World.connect_same answer)
  case stopped | proceeded => exact .looked rfl rfl rfl rfl (.refl ..) ⟨rfl, rfl, rfl⟩
  case fetched answer =>
    obtain ⟨same, ⟨e, failed, -⟩ | ⟨d?, found, next⟩⟩ := World.poll_cases answer
    · cases failed
    · cases found
      exact .fetched rfl rfl next same
  case timedOut answer =>
    obtain ⟨same, looked⟩ := World.looked_of_poll answer (fun _ => nofun)
    exact .looked rfl rfl rfl rfl looked same
  case pollStopped answer =>
    obtain ⟨same, looked⟩ := World.looked_of_poll answer (fun _ => nofun)
    exact .looked rfl rfl rfl rfl looked same
  case pollFailed answer =>
    obtain ⟨same, looked⟩ := World.looked_of_poll answer (fun _ => nofun)
    exact .looked rfl rfl rfl rfl looked same
  case committed outcome _ answer =>
    obtain ⟨-, rfl, broker⟩ := World.commit_cases answer
    exact .settled rfl (w.resume_cases ..) broker
  case commitFailed answer =>
    obtain ⟨failed, -⟩ := World.commit_cases answer
    cases failed
  case commitStopped answer =>
    obtain ⟨failed, -⟩ := World.commit_cases answer
    cases failed
  case closed answer =>
    cases answer
    exact .ended rfl rfl ⟨rfl, rfl, rfl⟩
  case gaveUp answer =>
    cases answer
    exact .ended rfl rfl ⟨rfl, rfl, rfl⟩
  case rested => exact .ended rfl rfl ⟨rfl, rfl, rfl⟩
  all_goals exact .dispatched trivial rfl rfl

/-- A step that belongs to no dispatch leaves the logs and commits as they are, or commits the message
at hand. -/
theorem Works.sameLogs_or_settled {w : Worker (World σ)} {s s' : WorkerState Consumer}
    {world world' : World σ} (works : Works w s world s' world') (finished : ¬ s.phase.IsOpen) :
    world.SameLogs world' ∨ ∃ c d outcome, s.phase = .settling c d outcome ∧
      world'.broker = world.broker.commit c.group d.topic d.offset := by
  cases works with
  | opened => exact .inl ⟨rfl, rfl, rfl⟩
  | ended _ _ same => exact .inl same
  | looked _ _ _ _ _ same => exact .inl same
  | fetched _ _ _ same => exact .inl same
  | dispatched unfinished => exact absurd unfinished finished
  | settled settling _ broker => exact .inr ⟨_, _, _, settling, broker⟩

/-! ### Messages are fetched in increasing order -/

/-- One message stands before another if they are of one topic. -/
def Precedes (d d' : Delivery) : Prop := d.topic = d'.topic → d.offset < d'.offset

/-- The consumer stands behind these messages. -/
def Consumer.IsPast (c : Consumer) (ds : List Delivery) : Prop :=
  ∀ d ∈ ds, ∃ p : Nat, c.positions.get? d.topic = some p ∧ d.offset < p

theorem Consumer.IsPast.looked {b : Broker} {c c' : Consumer} {ds : List Delivery}
    (past : c.IsPast ds) (looked : Looked b c c') : c'.IsPast ds := by
  intro d known
  obtain ⟨p, stands, less⟩ := past d known
  exact ⟨p, looked.kept d.topic p stands, less⟩

/-- A consumer that fetches a message stands behind it then. -/
theorem Consumer.IsPast.next {b : Broker} {c c' : Consumer} {ds : List Delivery} {d : Delivery}
    (past : c.IsPast ds) (found : c.next b c.topics = (some d, c')) :
    c'.IsPast (ds ++ [d]) ∧ ∀ d' ∈ ds, Precedes d' d := by
  rcases c.next_cases b c.topics with ⟨_, nothing, -⟩ | ⟨d', middle, finds, looked, next⟩
  · rw [found] at nothing
    cases nothing
  · rw [found] at next
    cases next
    have before : ∀ d' ∈ ds, Precedes d' d := by
      intro d' known sameTopic
      obtain ⟨p, stands, less⟩ := past d' known
      rw [finds.placed, position, ← sameTopic, stands, Option.getD_some]
      exact less
    refine ⟨?_, before⟩
    intro d' known
    by_cases sameTopic : d'.topic = d.topic
    · refine ⟨c.position b d.topic + 1, ?_, ?_⟩
      · rw [sameTopic]
        exact Table.get?_set_self ..
      · rcases List.mem_append.mp known with earlier | last
        · have less := before d' earlier sameTopic
          rw [finds.placed] at less
          omega
        · rw [List.mem_singleton.mp last, finds.placed]
          omega
    · have earlier : d' ∈ ds := by
        rcases List.mem_append.mp known with earlier | last
        · exact earlier
        · exact absurd (congrArg Delivery.topic (List.mem_singleton.mp last)) sameTopic
      obtain ⟨p, stands, less⟩ := past d' earlier
      refine ⟨p, ?_, less⟩
      rw [← looked.kept d'.topic p stands]
      exact Table.get?_set_of_ne _ _ sameTopic

/-- A worker's consumer stands behind these messages; a worker that has opened none has fetched
none. -/
def IsPast (phase : Phase Consumer) (ds : List Delivery) : Prop :=
  (phase = .unopened → ds = []) ∧ ∀ c, phase.consumer? = some c → c.IsPast ds

variable {w : Worker (World σ)} {start s : WorkerState Consumer}
  {moves : List (Move (World σ) Consumer)}

theorem Works.past {s' : WorkerState Consumer} {world world' : World σ}
    (works : Works w s world s' world') {ds : List Delivery} (past : IsPast s.phase ds) :
    IsPast s'.phase (ds ++ s'.phase.fetched?.toList) ∧
      ∀ d ∈ s'.phase.fetched?, ∀ d' ∈ ds, Precedes d' d := by
  cases works with
  | opened unopened opened =>
    rw [opened, past.1 unopened]
    exact ⟨⟨nofun, fun _ _ => nofun⟩, nofun⟩
  | ended _ ended =>
    rw [ended]
    exact ⟨⟨nofun, nofun⟩, nofun⟩
  | looked _ unheld' consumer consumer' looked =>
    rw [Phase.fetched?_of_unheld unheld', Option.toList_none, List.append_nil]
    refine ⟨⟨?_, ?_⟩, nofun⟩
    · intro unopened
      rw [unopened] at consumer'
      cases consumer'
    · intro c' at'
      rw [consumer'] at at'
      cases at'
      exact (past.2 _ consumer).looked looked
  | fetched waiting received found =>
    have here := past.2 _ (congrArg Phase.consumer? waiting)
    obtain ⟨past', before⟩ := here.next found
    rw [received]
    refine ⟨⟨nofun, ?_⟩, ?_⟩
    · intro c' at'
      cases at'
      exact past'
    · intro d' at'
      cases at'
      exact before
  | dispatched unfinished held unfetched =>
    rw [unfetched, Option.toList_none, List.append_nil]
    obtain ⟨c, d, before⟩ := unfinished.held
    have same := Phase.consumer?_of_held? (held.trans before)
    refine ⟨⟨?_, ?_⟩, nofun⟩
    · intro unopened
      rw [unopened] at same
      cases same
    · intro c' at'
      rw [same] at at'
      cases at'
      exact past.2 _ (Phase.consumer?_of_held? before)
  | settled settling further =>
    rcases further with checking | ⟨exit, ended⟩
    · rw [checking, Phase.fetched?_of_unheld rfl, Option.toList_none, List.append_nil]
      refine ⟨⟨nofun, ?_⟩, nofun⟩
      intro c' at'
      cases at'
      exact past.2 _ (congrArg Phase.consumer? settling)
    · rw [ended]
      exact ⟨⟨nofun, nofun⟩, nofun⟩

/-- The messages that a worker fetches from one topic have increasing offsets. -/
theorem fetched_increasing (run : w.Makes World.host start moves s) :
    (fetched moves).Pairwise Precedes := by
  have past : IsPast s.phase (fetched moves) ∧ (fetched moves).Pairwise Precedes := by
    induction run with
    | start => exact ⟨⟨fun _ => rfl, fun _ _ _ none => nomatch none⟩, .nil⟩
    | step run made ih =>
      obtain ⟨past, before⟩ := (works_of_does (does_step made)).past ih.1
      rw [fetched_snoc]
      refine ⟨past, List.pairwise_append.mpr ⟨ih.2, ?_, ?_⟩⟩
      · cases Phase.fetched? _ <;> simp
      · intro d' earlier d last
        exact before d (by simpa using last) d' earlier
  exact past.2

/-- A worker fetches no record twice. -/
theorem fetched_nodup (run : w.Makes World.host start moves s) :
    ((fetched moves).map fun d => (d.topic, d.offset)).Nodup := by
  rw [List.Nodup, List.pairwise_map]
  refine (fetched_increasing run).imp ?_
  intro d d' precedes same
  obtain ⟨topic, offset⟩ := Prod.mk.inj same
  exact absurd offset (Int.ne_of_lt (precedes topic))

/-- A message that has just been fetched is the one that the consumer found. -/
theorem Works.fetched_cases {s' : WorkerState Consumer} {world world' : World σ}
    (works : Works w s world s' world') {d : Delivery} (fetches : s'.phase.fetched? = some d) :
    ∃ c c', s.phase = .waiting c ∧ c.next world.broker c.topics = (some d, c') := by
  cases works with
  | fetched waiting received found =>
    rw [received] at fetches
    cases fetches
    exact ⟨_, _, waiting, found⟩
  | opened _ opened =>
    rw [opened] at fetches
    cases fetches
  | ended _ ended =>
    rw [ended] at fetches
    cases fetches
  | looked _ unheld' =>
    rw [Phase.fetched?_of_unheld unheld'] at fetches
    cases fetches
  | dispatched _ _ unfetched =>
    rw [unfetched] at fetches
    cases fetches
  | settled _ further =>
    rcases further with checking | ⟨exit, ended⟩
    · rw [checking] at fetches
      cases fetches
    · rw [ended] at fetches
      cases fetches

theorem Works.delivers {s' : WorkerState Consumer} {world world' : World σ}
    (works : Works w s world s' world') {d : Delivery} (fetches : s'.phase.fetched? = some d) :
    world.broker.Delivers d := by
  obtain ⟨c, c', -, found⟩ := works.fetched_cases fetches
  rcases c.next_cases world.broker c.topics with ⟨_, nothing, -⟩ | ⟨_, _, finds, -, next⟩
  · rw [found] at nothing
    cases nothing
  · rw [found] at next
    cases next
    exact finds.delivers

/-- A message that a worker fetched was a record of the broker at that time. -/
theorem exists_delivers_of_fetched (run : w.Makes World.host start moves s) {d : Delivery}
    (fetches : d ∈ fetched moves) : ∃ m ∈ moves, m.found.broker.Delivers d := by
  obtain ⟨m, made, now⟩ := List.mem_filterMap.mp fetches
  obtain ⟨earlier, later, split⟩ := List.append_of_mem made
  exact ⟨m, made, (works_of_does (does_step (run.before split).2)).delivers now⟩

end Memory

end EventPipeline
