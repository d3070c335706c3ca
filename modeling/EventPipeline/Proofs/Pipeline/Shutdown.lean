import EventPipeline.Proofs.Pipeline.Runs
import EventPipeline.Proofs.Worker.Windup
import EventPipeline.Shutdown

/-! # Shutdown of a pipeline

A signal that was triggered stays so whatever is done with signals (`Signals.Leads.isTriggered`). So from
the moment at which any handle of the workers' signal is triggered, every worker finds it triggered
whenever it looks, and each of them winds up, in whatever order the workers make their steps
(`Pipeline.Runs.windsUp_of_triggered`).
-/

namespace EventPipeline

variable {ω κ : Type}

/-! ### Signals -/

namespace Signals

/-- What signals can become when signals are made, shared and triggered. -/
inductive Leads (s : Signals) : Signals → Prop where
  | refl : Leads s s
  | created {t : Signals} (earlier : Leads s t) : Leads s (create t).2.1
  | shared {t : Signals} (earlier : Leads s t) (handle : Nat) : Leads s (share handle t).2.1
  | triggered {t : Signals} (earlier : Leads s t) (handle : Nat) : Leads s (trigger handle t).2.1

variable {s t : Signals} {handle : Nat}

theorem Leads.length_le (leads : s.Leads t) : s.handles.length ≤ t.handles.length := by
  induction leads with
  | refl => exact Nat.le_refl _
  | created _ ih => exact Nat.le_trans ih (by simp [create])
  | shared _ handle ih => exact Nat.le_trans ih (by simp [share])
  | triggered _ handle ih => exact ih

/-- A handle keeps its signal. -/
theorem Leads.signalOf_eq (leads : s.Leads t) (known : handle < s.handles.length) :
    t.signalOf handle = s.signalOf handle := by
  induction leads with
  | refl => rfl
  | created earlier ih =>
    have known' := Nat.lt_of_lt_of_le known earlier.length_le
    rw [← ih]
    simp [signalOf, create, List.getElem?_append_left known']
  | shared earlier other ih =>
    have known' := Nat.lt_of_lt_of_le known earlier.length_le
    rw [← ih]
    simp [signalOf, share, List.getElem?_append_left known']
  | triggered earlier other ih => exact ih

theorem isTriggered_iff : s.isTriggered handle = true ↔
    s.triggered[s.signalOf handle]? = some true := by
  rw [isTriggered, List.getD_eq_getElem?_getD]
  cases s.triggered[s.signalOf handle]? <;> simp

/-- A signal is triggered once and for all. -/
theorem Leads.isTriggered (leads : s.Leads t) (known : handle < s.handles.length)
    (triggered : s.isTriggered handle = true) : t.isTriggered handle = true := by
  rw [isTriggered_iff] at triggered ⊢
  rw [leads.signalOf_eq known]
  induction leads with
  | refl => exact triggered
  | created _ ih =>
    have inside := (List.getElem?_eq_some_iff.mp ih).1
    exact (List.getElem?_append_left inside).trans ih
  | shared _ _ ih => exact ih
  | triggered _ other ih =>
    have inside := (List.getElem?_eq_some_iff.mp ih).1
    simp only [trigger, List.getElem?_set]
    split
    · next same => rw [if_pos (same ▸ inside)]
    · exact ih

/-- Handles that share a signal agree on whether it was triggered. -/
theorem isTriggered_congr {clone : Nat} (shared : s.signalOf clone = s.signalOf handle) :
    s.isTriggered clone = s.isTriggered handle := by
  rw [isTriggered, isTriggered, shared]

end Signals

/-! ### Workers that look at a signal -/

/-- Whatever a worker calls does nothing to the signals but make, share and trigger some. -/
structure Worker.Heeds (h : Host ω κ) (view : ω → Signals) (w : Worker ω) : Prop where
  connect : ∀ world, (view world).Leads (view (h.connect w.subscription world).2.1)
  poll : ∀ c world, (view world).Leads (view (h.poll c w.settings.pollTimeout world).2.1)
  commit : ∀ c d world, (view world).Leads (view (h.commit c d world).2.1)
  close : ∀ c world, (view world).Leads (view (h.close c world).2.1)
  handlers : ∀ a ∈ w.registry.accepted, ∀ e world,
    (view world).Leads (view (a.listener.handler.handle e world).2.1)
  sink : ∀ record world, (view world).Leads (view (w.publisher.sink.produce record world).2.1)

namespace Worker

variable {h : Host ω κ} {view : ω → Signals} {w : Worker ω} {s s' : WorkerState κ} {world world' : ω}
  {happened : List Occurrence}

theorem leads_of_eq {α : Type} {act : α × ω × List LogEntry} {a : α} {log : List LogEntry}
    (leads : (view world).Leads (view act.2.1)) (answer : act = (a, world', log)) :
    (view world).Leads (view world') := by
  rwa [answer] at leads

/-- A step of a worker does nothing to the signals but make, share and trigger some. -/
theorem Does.leads (does : Does h w s world s' world' happened) (heeds : w.Heeds h view) :
    (view world).Leads (view world') := by
  have handler {r : Routed} {ran : Nat} {l : Listener (Handler ω)}
      (next : (w.listenersFor r)[ran]? = some l) :
      (view world).Leads (view (l.handler.handle r.event world).2.1) := by
    obtain ⟨a, accepted, -, rfl⟩ := Registry.exists_of_mem_matching (List.mem_of_getElem? next)
    exact heeds.handlers a accepted r.event world
  cases does
  case connected answer | refused answer => exact leads_of_eq (heeds.connect world) answer
  case fetched answer | timedOut answer | pollStopped answer | pollFailed answer =>
    exact leads_of_eq (heeds.poll _ world) answer
  case accepted next answer | failed next answer => exact leads_of_eq (handler next) answer
  case escalated answer | notEscalated answer | buried answer | notBuried answer =>
    exact leads_of_eq (heeds.sink _ world) answer
  case committed answer | commitFailed answer | commitStopped answer =>
    exact leads_of_eq (heeds.commit _ _ world) answer
  case closed answer | gaveUp answer => exact leads_of_eq (heeds.close _ world) answer
  all_goals exact .refl

end Worker

/-! ### Pipelines -/

namespace Pipeline

variable {h : Host ω κ} {others : ω → ω → Prop} {workers : List (Worker ω)} {world : ω}
  {earlier later : List (Nat × Move ω κ)} {line₀ line : Pipeline ω κ}

/-- From the moment at which shutdown is triggered all moves find it triggered. -/
theorem Runs.stopping_of_triggered {view : ω → Signals} {handle : Nat}
    (looks : ∀ world, h.stopping world = (view world).isTriggered handle)
    (heeds : ∀ w ∈ line₀.crew.map Prod.fst, w.Heeds h view)
    (changes : ∀ world world', others world world' → (view world).Leads (view world'))
    (after : Runs h others line₀ later line) (known : handle < (view line₀.world).handles.length)
    (triggered : (view line₀.world).isTriggered handle = true) :
    ∀ made ∈ later, h.stopping made.2.found = true := by
  have leads : ∀ world world', (view world).Leads (view world') →
      (handle < (view world).handles.length ∧ (view world).isTriggered handle = true) →
      handle < (view world').handles.length ∧ (view world').isTriggered handle = true :=
    fun _ _ leads ⟨known, triggered⟩ =>
      ⟨Nat.lt_of_lt_of_le known leads.length_le, leads.isTriggered known triggered⟩
  obtain ⟨-, lasts⟩ := after.keeps ⟨known, triggered⟩
    (fun w worker _ _ _ _ _ made => leads _ _ ((Worker.does_step made).leads (heeds w worker)))
    fun world world' change => leads world world' (changes world world' change)
  intro made mem
  rw [looks]
  exact (lasts made mem).2

/-- Shutdown is prompt and clean. Let the workers of a pipeline look at a handle of a signal, while they,
their handlers and all others do what they like with signals. From any moment at which some handle of
this signal is found triggered, whoever has triggered it, and in whatever order the workers make their
steps, each worker winds up; and if it has ended, it has returned that it was told to stop, with the
counts of all messages that it has ever fetched, unless it got no consumer, its consumer answered a fatal
error, or a pause that outlasts the clock tore it down. -/
theorem Runs.windsUp_of_triggered {view : ω → Signals} {handle clone : Nat}
    (looks : ∀ world, h.stopping world = (view world).isTriggered handle)
    (heeds : ∀ w ∈ workers, w.Heeds h view)
    (changes : ∀ world world', others world world' → (view world).Leads (view world'))
    (before : Runs h others (.start workers world) earlier line₀)
    (known : handle < (view line₀.world).handles.length)
    (shared : (view line₀.world).signalOf clone = (view line₀.world).signalOf handle)
    (triggered : (view line₀.world).isTriggered clone = true)
    (after : Runs h others line₀ later line) {i : Nat} {w : Worker ω} (worker : workers[i]? = some w) :
    ∃ s₀ s, line₀.crew[i]? = some (w, s₀) ∧ line.crew[i]? = some (w, s) ∧
      w.WindsUp s₀ (own i later) s ∧
      ∀ exit, s.phase = .ended exit → w.Returns (own i (earlier ++ later)) exit ∨
        (∃ text, exit = .panicked text) ∧ ∃ m ∈ own i (earlier ++ later), m.Overlong w := by
  have crew : line₀.crew.map Prod.fst = workers := before.map_crew.trans (map_fst_start workers world)
  obtain ⟨s₀, stood, -⟩ := before.makes worker
  obtain ⟨s, stands, makes⟩ := after.makes_from stood
  have stopping := after.stopping_of_triggered looks (crew ▸ heeds) changes known
    (Signals.isTriggered_congr shared ▸ triggered)
  refine ⟨s₀, s, stood, stands, ?_, ?_⟩
  · exact makes.windsUp fun m mem => stopping (i, m) (mem_own.mp mem)
  · intro exit ended
    obtain ⟨s', stands', life⟩ := (before.append after).makes worker
    rw [stands] at stands'
    cases stands'
    exact life.returns ended

end Pipeline

/-! ### A handler that triggers shutdown and fails -/

namespace Memory

variable {σ : Type}

/-- The signal of a world, with a handle for the workers and one for all others. -/
def World.signals (world : World σ) : Signals := ⟨[world.stopping], [0, 0]⟩

/-- Workers with a broker in memory do nothing to the signal themselves, so they heed it if their handlers
do. -/
theorem heeds_of_handlers {w : Worker (World σ)} (sink : w.publisher.sink = World.sink)
    (handlers : ∀ a ∈ w.registry.accepted, ∀ e (world : World σ),
      world.signals.Leads (World.signals (a.listener.handler.handle e world).2.1)) :
    w.Heeds World.host World.signals where
  connect _ := .refl
  poll _ _ := .refl
  commit _ _ _ := .refl
  close _ _ := .refl
  handlers := handlers
  sink _ _ := sink ▸ .refl

end Memory

namespace Sample

open Memory

/-- A handler that triggers shutdown and fails. -/
def closingHandler : Handler (World Unit) where
  name := "closing"
  handle _ := do
    World.trigger
    pure (.error (.failed "closing"))

def closingWorker : Worker (World Unit) :=
  .business "billing" [] ⟨none, [⟨"billing", ⟨["orders"], none, closingHandler⟩⟩]⟩ publisher
    .standard .standard

theorem closingWorker_heeds : closingWorker.Heeds World.host World.signals := by
  apply heeds_of_handlers rfl
  intro a accepted e world
  cases List.mem_singleton.mp accepted
  exact .triggered .refl 1

/-- The pipeline with this worker before anything happens. -/
def closingLine : Pipeline (World Unit) Consumer := .start [closingWorker] world

/-- The worker has opened its consumer, fetched the message and offered the event to the handler. -/
def triggeredLine : Pipeline (World Unit) Consumer :=
  (closingLine.exec World.host (List.replicate 5 0)).1

/-- The worker has made eight further steps. -/
def closedLine : Pipeline (World Unit) Consumer :=
  (triggeredLine.exec World.host (List.replicate 8 0)).1

/-- What the worker does in these steps. -/
def closingMoves : List (Move (World Unit) Consumer) :=
  own 0 (triggeredLine.trace World.host (List.replicate 8 0))

end Sample

namespace Pipeline

open Memory

/-- The worker moves the event on, commits its message and returns. -/
theorem sample_windsUp : ∃ s₀ s c r,
    Sample.triggeredLine.crew[0]? = some (Sample.closingWorker, s₀) ∧
    s₀.phase = .failing c Sample.message r ∧
    Sample.closedLine.crew[0]? = some (Sample.closingWorker, s) ∧
    s.phase = .ended (.stopped ⟨0, 1, 0⟩) ∧
    Sample.closingWorker.MovesOn Sample.message r
      (observed Occurrence.deed? Sample.closingMoves) := by
  have looks : ∀ world : World Unit, World.host.stopping world = world.signals.isTriggered 0 :=
    fun _ => rfl
  have heeds : ∀ w ∈ [Sample.closingWorker], w.Heeds World.host World.signals :=
    List.forall_mem_singleton.mpr Sample.closingWorker_heeds
  have before : Runs World.host (fun _ _ => False) Sample.closingLine _ Sample.triggeredLine :=
    (Runs.start.exec (List.replicate 5 0)).1
  have after : Runs World.host (fun _ _ => False) Sample.triggeredLine _ Sample.closedLine :=
    (Runs.start.exec (List.replicate 8 0)).1
  have triggered : (World.signals Sample.triggeredLine.world).isTriggered 1 = true := rfl
  have worker : [Sample.closingWorker][0]? = some Sample.closingWorker := rfl
  obtain ⟨s₀, s, stood, stands, windsUp, -⟩ :=
    before.windsUp_of_triggered looks heeds (fun _ _ => False.elim) Nat.zero_lt_two rfl triggered after
      worker
  cases stood
  cases stands
  exact ⟨_, _, _, _, rfl, rfl, rfl, rfl, windsUp.closes rfl⟩

end Pipeline

end EventPipeline
