import Mathlib.Logic.Relation
import EventPipeline.Proofs.Escalation
import EventPipeline.Proofs.Memory.Worker
import EventPipeline.Proofs.Worker.Republish

/-! # Nothing is lost at a crash

The worker of one group lives several lives: each begins with a new consumer, and each ends by
itself or is cut off after any step. Others add records meanwhile, but only this worker commits for
its group. Between two lives all that is known is what was committed. The invariant is that the
consumer stands where its group has got, except that it stands one further in the topic of the
message at hand; so a commit moves the group past that one message, whose dispatch has come to its
end by then.
-/

namespace EventPipeline.Memory

open Worker

variable {σ : Type}

/-- The world after others did something: records may have been added, and this group has committed
nothing. -/
structure World.Spares (group : String) (world world' : World σ) : Prop where
  grows : world.broker.Grows world'.broker
  commits : ∀ topic, world'.broker.reached group topic = world.broker.reached group topic

theorem World.Spares.refl (group : String) (world : World σ) : world.Spares group world :=
  ⟨.refl _, fun _ => rfl⟩

theorem World.SameLogs.spares {world world' : World σ} (same : world.SameLogs world')
    (group : String) : world.Spares group world' := by
  refine ⟨Broker.grows_of_arrivals_eq same.arrivals, fun topic => ?_⟩
  exact Broker.reached_congr (Broker.committed?_congr same.offsets group topic)

theorem World.spares_append (group : String) (world : World σ) (topic : String) (r : Record) :
    world.Spares group { world with broker := world.broker.append topic r } :=
  ⟨Broker.grows_append .., fun _ => rfl⟩

/-- The worker publishes to the broker of its world, and its handlers commit nothing for its
group. -/
structure IsCommitter (w : Worker (World σ)) : Prop where
  sink : w.publisher.sink = World.sink
  handlers : ∀ a ∈ w.registry.accepted, ∀ e world,
    World.Spares w.group world (a.listener.handler.handle e world).2.1

/-! ### Histories -/

/-- The lives of a worker so far, and where it stands. -/
structure History (σ : Type) where
  /-- The moves of each life that is over. -/
  past : List (List (Move (World σ) Consumer))
  /-- The moves of the present life. -/
  moves : List (Move (World σ) Consumer)
  state : WorkerState Consumer
  world : World σ

namespace History

/-- A worker before its first life. -/
def start (world : World σ) : History σ := ⟨[], [], .initial, world⟩

/-- The moves of each life. -/
def lives (hist : History σ) : List (List (Move (World σ) Consumer)) := hist.past ++ [hist.moves]

/-- What can happen next: the worker makes a step, others do something, or the present life is over
and another one begins. -/
inductive Turn (w : Worker (World σ)) : History σ → History σ → Prop where
  | moved {past : List (List (Move (World σ) Consumer))} {moves : List (Move (World σ) Consumer)}
    {s s' : WorkerState Consumer} {world world' : World σ} {happened : List Occurrence}
    (made : w.step World.host s world = (s', world', happened)) :
    Turn w ⟨past, moves, s, world⟩
      ⟨past, moves ++ [⟨s, world, s', world', happened⟩], s', world'⟩
  | others {past : List (List (Move (World σ) Consumer))} {moves : List (Move (World σ) Consumer)}
    {s : WorkerState Consumer} {world world' : World σ} (spares : world.Spares w.group world') :
    Turn w ⟨past, moves, s, world⟩ ⟨past, moves, s, world'⟩
  | restarted {past : List (List (Move (World σ) Consumer))}
    {moves : List (Move (World σ) Consumer)} {s : WorkerState Consumer} {world : World σ} :
    Turn w ⟨past, moves, s, world⟩ ⟨past ++ [moves], [], .initial, world⟩

/-- The second history continues the first one. -/
def Continues (w : Worker (World σ)) : History σ → History σ → Prop :=
  Relation.ReflTransGen (Turn w)

/-- The history after the worker's next step. -/
def step (w : Worker (World σ)) (hist : History σ) : History σ :=
  let (s', world', happened) := w.step World.host hist.state hist.world
  ⟨hist.past, hist.moves ++ [⟨hist.state, hist.world, s', world', happened⟩], s', world'⟩

/-- The history after the worker has begun anew. -/
def restart (hist : History σ) : History σ := ⟨hist.lives, [], .initial, hist.world⟩

theorem continues_step (w : Worker (World σ)) (hist : History σ) :
    Continues w hist (hist.step w) := .single (.moved rfl)

theorem continues_restart (w : Worker (World σ)) (hist : History σ) :
    Continues w hist hist.restart := .single .restarted

/-- A worker may make any number of steps while nothing else happens. -/
theorem continues_iterate (w : Worker (World σ)) (n : Nat) (hist : History σ) :
    Continues w hist ((step w)^[n] hist) := by
  induction n generalizing hist with
  | zero => exact .refl
  | succ n ih => exact (continues_step w hist).trans (ih _)

end History

/-! ### The consumer stands where its group has got -/

/-- The consumer stands where its group has got, except that it stands one further in the topic of
the message at hand. -/
structure Stands (group : String) (b : Broker) (phase : Phase Consumer) : Prop where
  ours : ∀ c, phase.consumer? = some c → c.group = group
  idle : ∀ c, phase.consumer? = some c → ∀ topic,
    (∀ d, phase.held? = some (c, d) → d.topic ≠ topic) →
      c.position b topic = b.reached group topic
  held : ∀ c d, phase.held? = some (c, d) → b.Delivers d ∧
    d.offset = b.reached group d.topic ∧ c.position b d.topic = b.reached group d.topic + 1

theorem position_of_spares {world world' : World σ} {c : Consumer}
    (spares : world.Spares c.group world') (topic : String) :
    c.position world'.broker topic = c.position world.broker topic := by
  rw [Consumer.position, Consumer.position, spares.commits]

theorem Stands.spares {group : String} {world world' : World σ} {phase phase' : Phase Consumer}
    (stands : Stands group world.broker phase) (spares : world.Spares group world')
    (held : phase'.held? = phase.held?) (consumer : phase'.consumer? = phase.consumer?) :
    Stands group world'.broker phase' := by
  have position : ∀ c, phase.consumer? = some c → ∀ topic,
      c.position world'.broker topic = c.position world.broker topic := by
    intro c known topic
    have ours := stands.ours c known
    exact position_of_spares (ours ▸ spares) topic
  refine ⟨consumer ▸ stands.ours, ?_, ?_⟩
  · intro c known topic elsewhere
    rw [consumer] at known
    rw [position c known, spares.commits]
    exact stands.idle c known topic fun d at' => elsewhere d (held.trans at')
  · intro c d known
    rw [held] at known
    obtain ⟨delivers, placed, next⟩ := stands.held c d known
    rw [position c (Phase.consumer?_of_held? known), spares.commits]
    exact ⟨delivers.mono spares.grows, placed, next⟩

theorem Stands.looked {group : String} {b : Broker} {phase phase' : Phase Consumer}
    {c c' : Consumer} (stands : Stands group b phase) (unheld : phase.held? = none)
    (consumer : phase.consumer? = some c) (looked : Consumer.Looked b c c')
    (unheld' : phase'.held? = none) (consumer' : phase'.consumer? = some c') :
    Stands group b phase' := by
  constructor
  · intro c'' known
    rw [consumer'] at known
    cases known
    exact looked.group.trans (stands.ours c consumer)
  · intro c'' known topic _
    rw [consumer'] at known
    cases known
    rw [looked.position_eq]
    apply stands.idle c consumer topic
    intro d known
    rw [unheld] at known
    cases known
  · intro c'' d known
    rw [unheld'] at known
    cases known

theorem Stands.fetched {group : String} {b : Broker} {c c' : Consumer} {d : Delivery}
    (stands : Stands group b (.waiting c)) (found : c.next b c.topics = (some d, c')) :
    Stands group b (.received c' d) := by
  have position : ∀ topic, c.position b topic = b.reached group topic :=
    fun topic => stands.idle c rfl topic nofun
  rcases c.next_cases b c.topics with ⟨_, nothing, -⟩ | ⟨d', middle, finds, looked, next⟩
  · rw [found] at nothing
    cases nothing
  rw [found] at next
  cases next
  constructor
  · intro c'' known
    cases known
    exact looked.group.trans (stands.ours c rfl)
  · intro c'' known topic elsewhere
    cases known
    have differ : topic ≠ d.topic := (elsewhere d rfl).symm
    calc
      _ = middle.position b topic := middle.position_set_of_ne b _ differ
      _ = c.position b topic := looked.position_eq topic
      _ = b.reached group topic := position topic
  · intro c'' d' known
    cases known
    refine ⟨finds.delivers, ?_, ?_⟩
    · rw [finds.placed, position]
    · rw [Consumer.position_set_self, position]

/-- A commit moves the group past the message at hand. -/
theorem reached_settled {group : String} {b : Broker} {d : Delivery}
    (placed : d.offset = b.reached group d.topic) :
    (b.commit group d.topic d.offset).reached group d.topic = b.reached group d.topic + 1 := by
  rw [Broker.reached_commit_self, placed]
  omega

theorem reached_settled_of_ne (group : String) (b : Broker) {d : Delivery} {topic : String}
    (other : topic ≠ d.topic) :
    (b.commit group d.topic d.offset).reached group topic = b.reached group topic :=
  Broker.reached_congr (b.committed?_commit_of_topic_ne d.offset other)

/-- Such a commit moves the group past no other record. -/
theorem lt_reached_commit {group : String} {b : Broker} {d : Delivery}
    (placed : d.offset = b.reached group d.topic) {topic : String} {offset : Nat}
    (less : offset < (b.commit group d.topic d.offset).reached group topic) :
    offset < b.reached group topic ∨ topic = d.topic ∧ offset = b.reached group d.topic := by
  by_cases here : topic = d.topic
  · subst here
    rw [reached_settled placed] at less
    rcases Nat.lt_succ_iff_lt_or_eq.mp less with before | last
    · exact .inl before
    · exact .inr ⟨rfl, last⟩
  · rw [reached_settled_of_ne group b here] at less
    exact .inl less

theorem Stands.settled {b : Broker} {c : Consumer} {d : Delivery} {outcome : Outcome}
    (stands : Stands c.group b (.settling c d outcome)) :
    Stands c.group (b.commit c.group d.topic d.offset) (.checking c) := by
  obtain ⟨-, placed, next⟩ := stands.held c d rfl
  refine ⟨?_, ?_, nofun⟩
  · intro c' known
    cases known
    rfl
  · intro c' known topic _
    cases known
    by_cases here : topic = d.topic
    · rw [here, reached_settled placed, Consumer.position]
      cases known : c.positions.get? d.topic with
      | some p =>
        rw [Consumer.position, known, Option.getD_some] at next
        rw [Option.getD_some, next]
      | none => rw [Option.getD_none, reached_settled placed]
    · have before := stands.idle c rfl topic fun d' known => by
        cases known
        exact Ne.symm here
      have unmoved := reached_settled_of_ne c.group b here
      rw [unmoved, ← before, Consumer.position, Consumer.position, unmoved]

theorem Stands.unopened (group : String) (b : Broker) : Stands group b .unopened :=
  ⟨nofun, nofun, nofun⟩

theorem Stands.ended (group : String) (b : Broker) (exit : Exit) :
    Stands group b (.ended exit) := ⟨nofun, nofun, nofun⟩

theorem Works.stands {w : Worker (World σ)} {s s' : WorkerState Consumer}
    {world world' : World σ} (works : Works w s world s' world')
    (spares : s.phase.IsOpen → world.Spares w.group world')
    (stands : Stands w.group world.broker s.phase) : Stands w.group world'.broker s'.phase := by
  cases works with
  | opened _ opened =>
    rw [opened]
    refine ⟨?_, ?_, nofun⟩
    · intro c known
      cases known
      rfl
    · intro c known topic _
      cases known
      rfl
  | ended _ ended =>
    rw [ended]
    exact .ended ..
  | looked unheld unheld' consumer consumer' looked same =>
    exact (stands.looked unheld consumer looked unheld' consumer').spares (same.spares _) rfl rfl
  | fetched waiting received found same =>
    rw [waiting] at stands
    rw [received]
    exact (stands.fetched found).spares (same.spares _) rfl rfl
  | dispatched unfinished held =>
    obtain ⟨c, d, before⟩ := unfinished.held
    have consumer : s'.phase.consumer? = s.phase.consumer? := by
      rw [Phase.consumer?_of_held? before, Phase.consumer?_of_held? (held.trans before)]
    exact stands.spares (spares unfinished) held consumer
  | @settled _ _ _ c d outcome settling further broker =>
    have ours : c.group = w.group := stands.ours c (congrArg Phase.consumer? settling)
    rcases further with checking | ⟨exit, ended⟩
    · rw [settling, ← ours] at stands
      rw [checking, broker, ← ours]
      exact stands.settled
    · rw [ended]
      exact .ended ..

/-! ### What a dispatch leaves in the world -/

section Dispatch

variable {w : Worker (World σ)} {s s' : WorkerState Consumer} {world world' : World σ}
  {happened : List Occurrence}

theorem IsCommitter.handler_spares (committer : IsCommitter w) {r : Routed} {ran : Nat}
    {l : Listener (Handler (World σ))} (next : (w.listenersFor r)[ran]? = some l) {e : Envelope}
    {result : Except Failure Unit} {log : List LogEntry}
    (answer : l.handler.handle e world = (result, world', log)) :
    world.Spares w.group world' := by
  obtain ⟨a, accepted, -, rfl⟩ := Registry.exists_of_mem_matching (List.mem_of_getElem? next)
  have spares := committer.handlers a accepted e world
  rw [answer] at spares
  exact spares

theorem IsCommitter.produce_spares (committer : IsCommitter w) {record : Outgoing}
    {result : Except BrokerError Unit} {log : List LogEntry}
    (answer : w.publisher.sink.produce record world = (result, world', log)) :
    world.Spares w.group world' := by
  rw [committer.sink] at answer
  rcases World.produce_cases answer with ⟨-, -, rfl⟩ | ⟨-, -, rfl⟩
  · exact .refl ..
  · exact world.spares_append ..

theorem IsCommitter.spares (committer : IsCommitter w)
    (does : Does World.host w s world s' world' happened) (unfinished : s.phase.IsOpen) :
    world.Spares w.group world' := by
  cases does <;> first
    | exact unfinished.elim
    | exact .refl ..
    | skip
  case accepted next answer => exact committer.handler_spares next answer
  case failed next answer => exact committer.handler_spares next answer
  case escalated answer => exact committer.produce_spares answer
  case notEscalated answer => exact committer.produce_spares answer
  case buried answer => exact committer.produce_spares answer
  case notBuried answer => exact committer.produce_spares answer

end Dispatch

/-- What became of an event that a handler failed on. Either it was addressed to the retry path, or
its record was handed to the broker, which refused it or added it to its topic; then a copy of the
event stands there in this world. -/
def MovedOn (w : Worker (World σ)) (d : Delivery) (dispatch : List (Move (World σ) Consumer))
    (outcome : Outcome) (world : World σ) : Prop :=
  ∃ r, w.Routes d r ∧
    ((w.failureTopics.plan? r.event r.group r.topic = none ∧ outcome = .escalationFailed) ∨
      ∃ path e, w.failureTopics.plan? r.event r.group r.topic = some (path, e) ∧
        (e = r.event ∨ e = r.event.retried r.group r.topic) ∧
        ∃ last ∈ dispatch,
          (outcome = .escalationFailed ∧ ∃ error log, World.sink.produce
            (Publisher.record (w.failureTopics.topicOf path) e d.keyText?) last.found =
              (.error error, last.left, log)) ∨
          (outcome = .escalated path ∧
            last.left.broker = last.found.broker.append (w.failureTopics.topicOf path)
              ⟨d.keyText?, some e.payload⟩ ∧
            ⟨d.keyText?, some e.payload⟩ ∈ world.broker.records (w.failureTopics.topicOf path) ∧
            Envelope.read e.payload = .ok e))

theorem movedOn_of_fails {w : Worker (World σ)} (committer : IsCommitter w) {c : Consumer}
    {d : Delivery} {dispatch : List (Move (World σ) Consumer)} {s : WorkerState Consumer}
    (run : w.Dispatches World.host c d dispatch s) {outcome : Outcome}
    (settling : s.phase = .settling c d outcome) (fails : ∃ m ∈ dispatch, Fails m.happened)
    {world : World σ} (grown : ∀ m ∈ dispatch, m.left.broker.Grows world.broker) :
    MovedOn w d dispatch outcome world := by
  have failed : outcome.isFailure = true := by
    have failed := run.hasFailed_iff.mpr fails
    rw [settling] at failed
    exact failed
  have same : ∀ {r : Routed} {path : Escalation} {e : Envelope},
      w.failureTopics.plan? r.event r.group r.topic = some (path, e) →
        e = r.event ∨ e = r.event.retried r.group r.topic := by
    intro r path e planned
    rcases FailureTopics.plan?_cases planned with ⟨-, -, same⟩ | ⟨-, -, same⟩
    · exact .inr same
    · exact .inl same
  cases outcome with
  | escalated path =>
    obtain ⟨earlier, last, r, e, log, rfl, -, routes, -, planned, answer, -⟩ :=
      run.escalated settling
    have formed := Envelope.wellFormed_of_read routes.choose_spec.2.1
    have reads := Envelope.read_payload (FailureTopics.wellFormed_of_plan? formed planned)
    have dispatched : last ∈ earlier ++ [last] :=
      List.mem_append_right _ (List.mem_singleton_self _)
    rw [committer.sink] at answer
    rcases World.produce_cases answer with ⟨-, ⟨_, refused⟩, -⟩ | ⟨-, -, left⟩
    · cases refused
    · have added : last.left.broker = last.found.broker.append (w.failureTopics.topicOf path)
          ⟨d.keyText?, some e.payload⟩ := congrArg World.broker left
      have copied := Broker.holds_append last.found.broker (w.failureTopics.topicOf path)
        ⟨d.keyText?, some e.payload⟩
      rw [← added] at copied
      exact ⟨r, routes, .inr ⟨path, e, planned, same planned, last, dispatched,
        .inr ⟨rfl, added, (copied.mono (grown last dispatched)).mem, reads⟩⟩⟩
  | escalationFailed =>
    obtain ⟨earlier, last, r, rfl, routes, -, ⟨unplanned, -⟩ | ⟨path, e, error, log, planned,
      answer⟩⟩ := run.escalationFailed settling
    · exact ⟨r, routes, .inl ⟨unplanned, rfl⟩⟩
    · rw [committer.sink] at answer
      exact ⟨r, routes, .inr ⟨path, e, planned, same planned, last,
        List.mem_append_right _ (List.mem_singleton_self _), .inl ⟨rfl, error, log, answer⟩⟩⟩
  | _ => cases failed

/-! ### Every committed record was dispatched before -/

/-- In this life the record at an offset was dispatched to the end, and after that the group was
moved past it. If a handler had failed, the event had been moved on by then. -/
def Settles (w : Worker (World σ)) (life : List (Move (World σ) Consumer)) (topic : String)
    (offset : Nat) : Prop :=
  ∃ earlier dispatch commit later c d outcome,
    life = earlier ++ dispatch ++ commit :: later ∧
    w.Dispatches World.host c d dispatch commit.before ∧
    commit.before.phase = .settling c d outcome ∧
    d.topic = topic ∧ d.offset = offset ∧ commit.found.broker.Delivers d ∧
    commit.found.broker.reached w.group topic = offset ∧
    commit.left.broker.reached w.group topic = offset + 1 ∧
    ((∃ m ∈ dispatch, Fails m.happened) → MovedOn w d dispatch outcome commit.found)

theorem Settles.snoc {w : Worker (World σ)} {life : List (Move (World σ) Consumer)}
    {topic : String} {offset : Nat} (settles : Settles w life topic offset)
    (m : Move (World σ) Consumer) : Settles w (life ++ [m]) topic offset := by
  obtain ⟨earlier, dispatch, commit, later, c, d, outcome, rfl, settles⟩ := settles
  exact ⟨earlier, dispatch, commit, later ++ [m], c, d, outcome, by simp, settles⟩

namespace History

/-- What holds of a worker at every time. -/
structure Sound (w : Worker (World σ)) (hist : History σ) : Prop where
  stands : Stands w.group hist.world.broker hist.state.phase
  makes : w.Makes World.host .initial hist.moves hist.state
  lived : ∀ life ∈ hist.past, ∃ s, w.Makes World.host .initial life s
  grown : ∀ m ∈ hist.moves, m.left.broker.Grows hist.world.broker
  bounded : ∀ topic, hist.world.broker.reached w.group topic ≤ hist.world.broker.nextOffset topic
  settled : ∀ topic offset, offset < hist.world.broker.reached w.group topic →
    ∃ life ∈ hist.lives, Settles w life topic offset

variable {w : Worker (World σ)} {hist hist' : History σ}

theorem sound_start {world : World σ}
    (uncommitted : ∀ topic, world.broker.committed? w.group topic = none) :
    (start world).Sound w := by
  have nothing : ∀ topic, world.broker.reached w.group topic = 0 := by
    intro topic
    rw [Broker.reached, uncommitted, Option.getD_none]
  refine ⟨.unopened .., .start, ?_, ?_, ?_, ?_⟩
  · intro _ none
    cases none
  · intro _ none
    cases none
  · intro topic
    rw [start, nothing]
    exact Nat.zero_le _
  · intro topic offset less
    rw [start, nothing] at less
    exact absurd less (Nat.not_lt_zero _)

theorem exists_life_snoc {past : List (List (Move (World σ) Consumer))}
    {moves : List (Move (World σ) Consumer)} {s s' : WorkerState Consumer} {world world' : World σ}
    {topic : String} {offset : Nat} (m : Move (World σ) Consumer)
    (before : ∃ life ∈ (History.mk past moves s world).lives, Settles w life topic offset) :
    ∃ life ∈ (History.mk past (moves ++ [m]) s' world').lives, Settles w life topic offset := by
  obtain ⟨life, lived, settles⟩ := before
  rcases List.mem_append.mp lived with ended | present
  · exact ⟨life, List.mem_append_left _ ended, settles⟩
  · rw [List.mem_singleton.mp present] at settles
    exact ⟨moves ++ [m], List.mem_append_right _ (List.mem_singleton_self _), settles.snoc m⟩

/-- Whatever a move left, a step that lets the logs grow has left them grown since. -/
theorem Sound.grown_snoc (sound : hist.Sound w) {m : Move (World σ) Consumer}
    (grows : hist.world.broker.Grows m.left.broker) :
    ∀ m' ∈ hist.moves ++ [m], m'.left.broker.Grows m.left.broker := by
  rw [List.forall_mem_append, List.forall_mem_singleton]
  exact ⟨fun m' earlier => (sound.grown m' earlier).trans grows, .refl _⟩

/-- A step that commits nothing leaves all records in place, and the group where it was. -/
theorem Sound.moved_spares {past : List (List (Move (World σ) Consumer))}
    {moves : List (Move (World σ) Consumer)} {s s' : WorkerState Consumer} {world world' : World σ}
    {happened : List Occurrence} (sound : (History.mk past moves s world).Sound w)
    (made : w.step World.host s world = (s', world', happened))
    (spares : world.Spares w.group world') (stands : Stands w.group world'.broker s'.phase) :
    (History.mk past (moves ++ [⟨s, world, s', world', happened⟩]) s' world').Sound w := by
  refine ⟨stands, sound.makes.step made, sound.lived, sound.grown_snoc spares.grows, ?_, ?_⟩
  · intro topic
    calc
      _ = world.broker.reached w.group topic := spares.commits topic
      _ ≤ world.broker.nextOffset topic := sound.bounded topic
      _ ≤ world'.broker.nextOffset topic := spares.grows.nextOffset_le topic
  · intro topic offset less
    rw [spares.commits] at less
    exact exists_life_snoc _ (sound.settled topic offset less)

/-- The commit of the message at hand settles its record in the present life. -/
theorem Sound.settles (committer : IsCommitter w) {past : List (List (Move (World σ) Consumer))}
    {moves : List (Move (World σ) Consumer)} {s s' : WorkerState Consumer} {world world' : World σ}
    {happened : List Occurrence} (sound : (History.mk past moves s world).Sound w) {c : Consumer}
    {d : Delivery} {outcome : Outcome} (settling : s.phase = .settling c d outcome)
    (broker : world'.broker = world.broker.commit w.group d.topic d.offset) :
    Settles w (moves ++ [⟨s, world, s', world', happened⟩]) d.topic
      (world.broker.reached w.group d.topic) := by
  have held : s.phase.held? = some (c, d) := congrArg Phase.held? settling
  obtain ⟨delivers, placed, -⟩ := sound.stands.held c d held
  have further : world'.broker.reached w.group d.topic =
      world.broker.reached w.group d.topic + 1 := by
    rw [broker]
    exact reached_settled placed
  obtain ⟨earlier, dispatch, split, run⟩ := sound.makes.dispatches rfl held
  refine ⟨earlier, dispatch, _, [], c, d, outcome, congrArg (fun moves => moves ++ [_]) split, run,
    settling, rfl, placed, delivers, rfl, further, ?_⟩
  intro fails
  apply movedOn_of_fails committer run settling fails
  intro m dispatched
  exact sound.grown m (split ▸ List.mem_append_right _ dispatched)

/-- The commit of a message moves the group past its record, which has been dispatched by then. -/
theorem Sound.moved_settled (committer : IsCommitter w)
    {past : List (List (Move (World σ) Consumer))} {moves : List (Move (World σ) Consumer)}
    {s s' : WorkerState Consumer} {world world' : World σ} {happened : List Occurrence}
    (sound : (History.mk past moves s world).Sound w)
    (made : w.step World.host s world = (s', world', happened)) {c : Consumer} {d : Delivery}
    {outcome : Outcome} (settling : s.phase = .settling c d outcome)
    (broker : world'.broker = world.broker.commit w.group d.topic d.offset)
    (stands : Stands w.group world'.broker s'.phase) :
    (History.mk past (moves ++ [⟨s, world, s', world', happened⟩]) s' world').Sound w := by
  have held : s.phase.held? = some (c, d) := congrArg Phase.held? settling
  obtain ⟨delivers, placed, -⟩ : world.broker.Delivers d ∧
      d.offset = world.broker.reached w.group d.topic ∧ _ := sound.stands.held c d held
  have same : world.broker.Grows world'.broker := broker ▸ .refl _
  refine ⟨stands, sound.makes.step made, sound.lived, sound.grown_snoc same, ?_, ?_⟩
  · -- the group passes a record only if the log holds it
    intro topic
    apply Nat.le_of_not_lt
    intro (beyond : world'.broker.nextOffset topic < _)
    rw [broker] at beyond
    rcases lt_reached_commit placed beyond with before | ⟨rfl, last⟩
    · exact absurd (sound.bounded topic) (Nat.not_le.mpr before)
    · obtain ⟨offset, r, placed', holds, -⟩ := delivers
      have less := holds.lt
      change world.broker.nextOffset d.topic = _ at last
      omega
  · intro topic offset less
    change offset < world'.broker.reached w.group topic at less
    rw [broker] at less
    rcases lt_reached_commit placed less with before | ⟨rfl, rfl⟩
    · exact exists_life_snoc _ (sound.settled topic offset before)
    · exact ⟨_, List.mem_append_right _ (List.mem_singleton_self _),
        sound.settles committer settling broker⟩

theorem Sound.exists_makes (sound : hist.Sound w) {life : List (Move (World σ) Consumer)}
    (lived : life ∈ hist.lives) : ∃ s, w.Makes World.host .initial life s := by
  rcases List.mem_append.mp lived with ended | present
  · exact sound.lived life ended
  · rw [List.mem_singleton.mp present]
    exact ⟨_, sound.makes⟩

theorem Sound.turn (committer : IsCommitter w) (sound : hist.Sound w) (turn : Turn w hist hist') :
    hist'.Sound w := by
  cases turn with
  | @moved past moves s s' world world' happened made =>
    have does := does_step made
    have works := works_of_does does
    have stands := works.stands (committer.spares does) sound.stands
    by_cases unfinished : s.phase.IsOpen
    · exact sound.moved_spares made (committer.spares does unfinished) stands
    · rcases works.sameLogs_or_settled unfinished with same | ⟨c, d, outcome, settling, broker⟩
      · exact sound.moved_spares made (same.spares _) stands
      · rw [sound.stands.ours c (congrArg Phase.consumer? settling)] at broker
        exact sound.moved_settled committer made settling broker stands
  | others spares =>
    refine ⟨sound.stands.spares spares rfl rfl, sound.makes, sound.lived,
      fun m moved => (sound.grown m moved).trans spares.grows, ?_, ?_⟩
    · intro topic
      rw [spares.commits]
      exact Nat.le_trans (sound.bounded topic) (spares.grows.nextOffset_le topic)
    · intro topic offset less
      rw [spares.commits] at less
      exact sound.settled topic offset less
  | restarted =>
    refine ⟨.unopened .., .start, fun _ => sound.exists_makes, fun _ => nofun, sound.bounded, ?_⟩
    · intro topic offset less
      obtain ⟨life, lived, settles⟩ := sound.settled topic offset less
      exact ⟨life, List.mem_append_left _ lived, settles⟩

theorem Sound.continues (committer : IsCommitter w) (sound : hist.Sound w)
    (continues : Continues w hist hist') : hist'.Sound w := by
  induction continues with
  | refl => exact sound
  | tail _ turn ih => exact ih.turn committer turn

/-- A group never goes back. -/
theorem Continues.reached_le (committer : IsCommitter w) (continues : Continues w hist hist')
    (topic : String) :
    hist.world.broker.reached w.group topic ≤ hist'.world.broker.reached w.group topic := by
  induction continues with
  | refl => exact Nat.le_refl _
  | tail _ turn ih =>
    apply Nat.le_trans ih
    cases turn with
    | @moved past moves s s' world world' happened made =>
      have does := does_step made
      by_cases unfinished : s.phase.IsOpen
      · exact Nat.le_of_eq ((committer.spares does unfinished).commits topic).symm
      · rcases (works_of_does does).sameLogs_or_settled unfinished with
          same | ⟨c, d, outcome, -, broker⟩
        · exact Nat.le_of_eq ((same.spares _).commits topic).symm
        · dsimp only
          rw [broker]
          exact Broker.reached_le_commit ..
    | others spares => exact Nat.le_of_eq (spares.commits topic).symm
    | restarted => exact Nat.le_refl _

/-- Let the worker be the only one that commits for its group, which has committed nothing at first,
and let it be cut off and begin anew any number of times. The group never goes back and never passes
the end of a log. Every record that it has passed was dispatched to the end before the commit, and
if a handler had failed on it, its event had been moved on by then, unless it was addressed to the
retry path or the broker refused it. In one life no record is fetched twice. -/
theorem no_loss (committer : IsCommitter w) {world : World σ}
    (uncommitted : ∀ topic, world.broker.committed? w.group topic = none)
    (continues : Continues w (start world) hist) :
    (∀ topic, hist.world.broker.reached w.group topic ≤ hist.world.broker.nextOffset topic) ∧
    (∀ hist', Continues w hist hist' → ∀ topic,
      hist.world.broker.reached w.group topic ≤ hist'.world.broker.reached w.group topic) ∧
    (∀ topic offset, offset < hist.world.broker.reached w.group topic →
      ∃ life ∈ hist.lives, Settles w life topic offset) ∧
    ∀ life ∈ hist.lives, ((fetched life).map fun d => (d.topic, d.offset)).Nodup := by
  have sound := (sound_start uncommitted).continues committer continues
  refine ⟨sound.bounded, fun _ later => later.reached_le committer, sound.settled, ?_⟩
  intro life lived
  obtain ⟨s, makes⟩ := sound.exists_makes lived
  exact fetched_nodup makes

end History

/-! ### A worker that is cut off and begins anew -/

theorem sample_isCommitter : IsCommitter Sample.worker := by
  refine ⟨rfl, ?_⟩
  intro a accepted e world
  cases List.mem_singleton.mp accepted
  exact .refl ..

/-- The worker of the sample after a first life of the given number of steps. -/
def sampleHistory (n : Nat) : History Unit :=
  ((History.step Sample.worker)^[n] (.start Sample.world)).restart

/-- When the worker has had its message, its handler has failed, and the commit is made, the record
was settled in the life that is over. -/
theorem sample_no_loss : (sampleHistory 7).world.broker.reached "billing" "orders" = 1 ∧
    ∃ life ∈ (sampleHistory 7).lives, Settles Sample.worker life "orders" 0 := by
  have reached : (sampleHistory 7).world.broker.reached "billing" "orders" = 1 := rfl
  have continues : History.Continues Sample.worker (.start Sample.world) (sampleHistory 7) :=
    (History.continues_iterate _ 7 _).trans (History.continues_restart _ _)
  obtain ⟨-, -, settled, -⟩ := History.no_loss sample_isCommitter (fun _ => rfl) continues
  exact ⟨reached, settled "orders" 0 (reached ▸ Nat.zero_lt_one)⟩

end EventPipeline.Memory
