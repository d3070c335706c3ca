import EventPipeline.Proofs.Memory.Agenda
import EventPipeline.Proofs.Pipeline.Runs

/-! # Workers that nobody stops

A worker ends only if it gets no consumer, sees a shutdown, or meets a fatal error or a pause that it
cannot make. Nothing that another worker does brings any of this about. So a worker whose group the
broker admits and has no errors arranged for, and whose pauses the clock can tell, goes on for as long
as nobody triggers shutdown.
-/

namespace EventPipeline

/-- The worker has not ended and is not about to. -/
def Phase.IsGoing {κ : Type} : Phase κ → Prop
  | .leaving .. | .ended _ => False
  | _ => True

theorem WorkerState.exit?_of_isGoing {κ : Type} {s : WorkerState κ} (going : s.phase.IsGoing) :
    s.exit? = none := by
  unfold exit?
  split
  · next ended =>
    rw [ended] at going
    exact going.elim
  · rfl

/-- A worker whose pauses the clock can tell goes on after a message. -/
theorem Worker.resume_of_brief {ω κ : Type} {w : Worker ω}
    (brief : ∀ streak, w.timer.outlastedBy (w.settings.backoff streak) = false) (c : κ)
    (outcome : Outcome) (streak : Nat) : w.resume c outcome streak = .checking c := by
  have short : (w.pause? outcome streak).any w.timer.outlastedBy = false := by
    unfold pause?
    dsimp only
    split
    · exact brief streak
    · rfl
  rw [resume, short]
  rfl

namespace Memory

open Worker

variable {σ : Type}

/-! ### What can stop a worker -/

/-- The broker admits the group and has no errors arranged for its polls, and shutdown has not been
triggered. -/
structure World.Undisturbed (group : String) (world : World σ) : Prop where
  going : world.stopping = false
  admitted : world.broker.rejected.contains group = false
  healthy : (world.broker.pollErrors.get? group).getD [] = []

/-- Every group that was undisturbed is so still. -/
def World.Calm (world world' : World σ) : Prop :=
  ∀ group, world.Undisturbed group → world'.Undisturbed group

/-- Neither the broker nor the shutdown signal has changed. -/
structure World.Steady (world world' : World σ) : Prop where
  broker : world'.broker = world.broker
  stopping : world'.stopping = world.stopping

namespace World

variable {world world' world'' : World σ}

theorem Calm.refl (world : World σ) : world.Calm world := fun _ undisturbed => undisturbed

theorem Calm.trans (first : world.Calm world') (second : world'.Calm world'') :
    world.Calm world'' :=
  fun group undisturbed => second group (first group undisturbed)

/-- What stops workers depends on the signal, the rejected groups and the arranged errors only. -/
theorem calm_of_same (stopping : world'.stopping = world.stopping)
    (rejected : world'.broker.rejected = world.broker.rejected)
    (errors : world'.broker.pollErrors = world.broker.pollErrors) : world.Calm world' := by
  rintro group ⟨going, admitted, healthy⟩
  constructor
  · rw [stopping, going]
  · rw [rejected, admitted]
  · rw [errors, healthy]

theorem Steady.calm (steady : world.Steady world') : world.Calm world' := by
  apply calm_of_same steady.stopping <;> rw [steady.broker]

theorem Steady.sameLogs (steady : world.Steady world') : world.SameLogs world' := by
  constructor <;> rw [steady.broker]

theorem steady_of_connect {s : Subscription} {answer : Except BrokerError Consumer}
    {log : List LogEntry} (connected : host.connect s world = (answer, world', log)) :
    world.Steady world' := by
  simp only [host, onBroker, Consumer.connect] at connected
  split at connected <;> cases connected <;> exact ⟨rfl, rfl⟩

/-- An undisturbed group gets its consumer. -/
theorem Undisturbed.connects {s : Subscription} (undisturbed : world.Undisturbed s.group)
    {answer : Except BrokerError Consumer} {log : List LogEntry}
    (connected : host.connect s world = (answer, world', log)) : ∃ c, answer = .ok c := by
  simp only [host, onBroker, Consumer.connect, undisturbed.admitted] at connected
  cases connected
  exact ⟨_, rfl⟩

/-- A poll takes an error away from its own group only. -/
theorem calm_of_poll {c c' : Consumer} {timeout : Duration}
    {answer : Except BrokerError (Option Delivery)} {log : List LogEntry}
    (polled : host.poll c timeout world = ((answer, c'), world', log)) : world.Calm world' := by
  rcases world.broker.takeError_cases c.group with taken | ⟨e, rest, arranged, taken⟩ <;>
    simp only [host, onBroker, Consumer.poll, taken] at polled <;> cases polled
  · exact calm_of_same rfl rfl rfl
  · rintro group ⟨going, admitted, healthy⟩
    -- an undisturbed group has no error arranged, so it is not the one that polls
    have other : group ≠ c.group := by
      rintro rfl
      rw [arranged] at healthy
      cases healthy
    refine ⟨going, admitted, ?_⟩
    dsimp only
    rw [Table.get?_set_of_ne _ _ other, healthy]

/-- A poll of an undisturbed group answers no error. -/
theorem Undisturbed.polls {c c' : Consumer} (undisturbed : world.Undisturbed c.group)
    {timeout : Duration} {answer : Except BrokerError (Option Delivery)} {log : List LogEntry}
    (polled : host.poll c timeout world = ((answer, c'), world', log)) : ∃ d?, answer = .ok d? := by
  rcases world.broker.takeError_cases c.group with taken | ⟨e, rest, arranged, -⟩
  · simp only [host, onBroker, Consumer.poll, taken] at polled
    cases polled
    exact ⟨_, rfl⟩
  · have healthy := undisturbed.healthy
    rw [arranged] at healthy
    cases healthy

end World

/-- The worker publishes to the broker of its world, and its handlers change neither the broker nor
the shutdown signal. -/
structure HandlesSteadily (w : Worker (World σ)) : Prop where
  sink : w.publisher.sink = World.sink
  handlers : ∀ a ∈ w.registry.accepted, ∀ e world,
    World.Steady world (a.listener.handler.handle e world).2.1

section Step

variable {w : Worker (World σ)} {s s' : WorkerState Consumer} {world world' : World σ}
  {happened : List Occurrence}

theorem HandlesSteadily.of_handle (steadily : HandlesSteadily w) {r : Routed} {ran : Nat}
    {l : Listener (Handler (World σ))} (next : (w.listenersFor r)[ran]? = some l) {e : Envelope}
    {result : Except Failure Unit} {log : List LogEntry}
    (answer : l.handler.handle e world = (result, world', log)) : world.Steady world' := by
  obtain ⟨a, accepted, -, rfl⟩ := Registry.exists_of_mem_matching (List.mem_of_getElem? next)
  have steady := steadily.handlers a accepted e world
  rw [answer] at steady
  exact steady

theorem HandlesSteadily.calm_of_produce (steadily : HandlesSteadily w) {record : Outgoing}
    {answer : Except BrokerError Unit} {log : List LogEntry}
    (produced : w.publisher.sink.produce record world = (answer, world', log)) :
    world.Calm world' := by
  rw [steadily.sink] at produced
  rcases World.produce_cases produced with ⟨-, -, rfl⟩ | ⟨-, -, rfl⟩
  · exact .refl _
  · exact World.calm_of_same rfl rfl rfl

/-- No step disturbs any group. -/
theorem HandlesSteadily.calm (steadily : HandlesSteadily w)
    (does : Does World.host w s world s' world' happened) : world.Calm world' := by
  cases does with
  | connected answer => exact (World.steady_of_connect answer).calm
  | refused answer => exact (World.steady_of_connect answer).calm
  | fetched answer => exact World.calm_of_poll answer
  | timedOut answer => exact World.calm_of_poll answer
  | pollStopped _ answer => exact World.calm_of_poll answer
  | pollFailed _ answer => exact World.calm_of_poll answer
  | accepted next answer => exact (steadily.of_handle next answer).calm
  | failed next answer => exact (steadily.of_handle next answer).calm
  | escalated _ answer => exact steadily.calm_of_produce answer
  | notEscalated _ answer => exact steadily.calm_of_produce answer
  | buried answer => exact steadily.calm_of_produce answer
  | notBuried answer => exact steadily.calm_of_produce answer
  | committed answer =>
    cases answer
    exact World.calm_of_same rfl rfl rfl
  | commitFailed _ answer =>
    cases answer
  | commitStopped _ answer =>
    cases answer
  | closed answer =>
    cases answer
    exact World.calm_of_same rfl rfl rfl
  | gaveUp answer =>
    cases answer
    exact World.calm_of_same rfl rfl rfl
  | _ => exact .refl _

/-! ### Going on -/

/-- In a world that does not disturb its group, a worker goes on. -/
theorem World.Undisturbed.goesOn (undisturbed : world.Undisturbed w.group)
    (brief : ∀ streak, w.timer.outlastedBy (w.settings.backoff streak) = false)
    (ours : ∀ c, s.phase.consumer? = some c → c.group = w.group)
    (does : Does World.host w s world s' world' happened) (going : s.phase.IsGoing) :
    s'.phase.IsGoing := by
  cases does with
  | refused answer =>
    have admitted : world.Undisturbed w.subscription.group := undisturbed
    obtain ⟨c, refused⟩ := admitted.connects answer
    cases refused
  | stopped stopping =>
    have continues : World.host.stopping world = false := undisturbed.going
    rw [continues] at stopping
    cases stopping
  | pollStopped _ answer =>
    have healthy := ours _ rfl ▸ undisturbed
    obtain ⟨d?, failed⟩ := healthy.polls answer
    cases failed
  | committed answer =>
    dsimp only
    rw [resume_of_brief brief]
    trivial
  | commitFailed _ answer =>
    cases answer
  | commitStopped _ answer =>
    cases answer
  | closed => exact going
  | gaveUp => exact going
  | rested => exact going
  | _ => trivial

/-- A worker goes on for as long as the worlds that it finds do not disturb its group. -/
theorem isGoing_of_makes {moves : List (Move (World σ) Consumer)}
    (run : w.Makes World.host .initial moves s)
    (undisturbed : ∀ m ∈ moves, m.found.Undisturbed w.group)
    (brief : ∀ streak, w.timer.outlastedBy (w.settings.backoff streak) = false) :
    s.phase.IsGoing := by
  induction run with
  | start => trivial
  | @step moves s s' world world' happened earlier made ih =>
    have serves := serves_of_makes earlier fun _ _ topic => Nat.zero_le _
    have going := ih fun m mem => undisturbed m (List.mem_append_left _ mem)
    have now := undisturbed _ (List.mem_append_right _ (List.mem_singleton_self _))
    exact now.goesOn brief (fun c consumer => (serves c consumer).group) (does_step made) going

end Step

section Run

variable {p : Plan (World σ)} {workers : List (Worker (World σ))} {world : World σ}
  {moves : List (Nat × Move (World σ) Consumer)} {line : Pipeline (World σ) Consumer}

theorem handlesSteadily_of_workers (accepted : p.workers = .ok workers)
    (sink : p.publisher.sink = World.sink)
    (handlers : ∀ a ∈ p.registry.accepted, ∀ e world,
      World.Steady world (a.listener.handler.handle e world).2.1) :
    ∀ w ∈ workers, HandlesSteadily w := by
  intro w worker
  obtain ⟨registry, publisher⟩ := Plan.same_of_workers accepted worker
  exact ⟨publisher ▸ sink, registry ▸ handlers⟩

/-- In a run a worker goes on whose group was undisturbed at the start, whatever the others do. -/
theorem isGoing_of_runs (steadily : ∀ w ∈ workers, HandlesSteadily w)
    (run : Pipeline.Runs World.host World.Steady (.start workers world) moves line) {i : Nat}
    {w : Worker (World σ)} {s : WorkerState Consumer} (present : line.crew[i]? = some (w, s))
    (undisturbed : world.Undisturbed w.group)
    (brief : ∀ streak, w.timer.outlastedBy (w.settings.backoff streak) = false) :
    s.phase.IsGoing := by
  obtain ⟨-, before⟩ := run.related World.Calm.refl World.Calm.trans
    (fun w worker _ _ _ _ _ _ _ made => (steadily w worker).calm (does_step made))
    fun _ _ steady => steady.calm
  obtain ⟨_, present', makes⟩ := run.makes (run.worker_of_mem present)
  rw [present] at present'
  cases present'
  apply isGoing_of_makes makes ?_ brief
  intro m made
  exact (before (i, m) (mem_of_mem_own made)).1 _ undisturbed

end Run

end Memory

end EventPipeline
