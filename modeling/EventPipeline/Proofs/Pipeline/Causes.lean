import Mathlib.Data.List.Forall2
import EventPipeline.Proofs.Pipeline.Report

/-! # How a handler fails does not matter

Two handlers mirror each other if on every call they do the same to their world, log the same and both
succeed or both fail, with whatever cause. Workers whose listeners have mirrored handlers make the same
steps (`Worker.Mirrors.step`): they come to the same states and leave the same worlds, and what happens is
alike up to the cause that a failed call answers and that the entry about it reports. A cause is a
`Failure`, which does nothing when it is discarded; one that panics then is not among them.
-/

namespace EventPipeline

variable {ω κ : Type}

/-- Two handlers of one name that differ in nothing but in how they fail. -/
structure Handler.Mirrors (a b : Handler ω) : Prop where
  name : b.name = a.name
  /-- What a call does to the world, and what it logs. -/
  effects : ∀ e world, (b.handle e world).2 = (a.handle e world).2
  success : ∀ e world, (b.handle e world).1 = .ok () ↔ (a.handle e world).1 = .ok ()

/-- Two listeners for the same events with mirrored handlers. -/
structure Listener.Mirrors (l l' : Listener (Handler ω)) : Prop where
  topics : l'.topics = l.topics
  namespaces : l'.namespaces = l.namespaces
  handler : l.handler.Mirrors l'.handler

/-- Two registries with mirrored listeners, one by one, under the same groups. -/
structure Registry.Mirrors (r r' : Registry (Handler ω)) : Prop where
  reserved : r'.reserved = r.reserved
  accepted : List.Forall₂ (fun a b => b.group = a.group ∧ a.listener.Mirrors b.listener)
    r.accepted r'.accepted

/-- What happened is the same, up to how a handler failed. -/
inductive Occurrence.Alike : Occurrence → Occurrence → Prop where
  | same (o : Occurrence) : Alike o o
  /-- The handler was called with the same event and failed too. -/
  | failed (handler : String) (e : Envelope) (f f' : Failure) :
    Alike (.offered handler e (.error f)) (.offered handler e (.error f'))
  /-- The entry about the failure says the same but for its cause. -/
  | reported (handler : String) (f f' : Failure) (group topic : String) (retries : UInt32) :
    Alike (.logged (.handlerFailed handler f group topic retries))
      (.logged (.handlerFailed handler f' group topic retries))

theorem alike_refl (happened : List Occurrence) : List.Forall₂ Occurrence.Alike happened happened :=
  List.forall₂_same.mpr fun o _ => .same o

/-- A function that takes related elements to equal ones takes related lists to equal ones. -/
theorem map_eq_of_forall₂ {α β : Type} {R : α → α → Prop} {f : α → β} (same : ∀ a b, R a b → f b = f a)
    {l l' : List α} (related : List.Forall₂ R l l') : l'.map f = l.map f := by
  induction related with
  | nil => rfl
  | cons head _ ih => rw [List.map_cons, List.map_cons, same _ _ head, ih]

/-- A condition that does not tell related elements apart picks related lists out of related ones. -/
theorem filter_of_forall₂ {α : Type} {R : α → α → Prop} {p : α → Bool} (same : ∀ a b, R a b → p b = p a)
    {l l' : List α} (related : List.Forall₂ R l l') : List.Forall₂ R (l.filter p) (l'.filter p) := by
  refine List.rel_filter (R := R) ?_ related
  intro a b head
  exact iff_of_eq (congrArg (· = true) (same a b head).symm)

/-- Related lists have related elements at each place. -/
theorem rel_getElem?_of_forall₂ {α : Type} {R : α → α → Prop} {l l' : List α}
    (related : List.Forall₂ R l l') (i : Nat) : Option.Rel R l[i]? l'[i]? := by
  induction related generalizing i with
  | nil => exact .none
  | cons head _ ih =>
    cases i with
    | zero => exact .some head
    | succ i => exact ih i

theorem set_of_forall₂ {α : Type} {R : α → α → Prop} {l l' : List α} (related : List.Forall₂ R l l')
    {a b : α} (head : R a b) (i : Nat) : List.Forall₂ R (l.set i a) (l'.set i b) := by
  induction related generalizing i with
  | nil => exact .nil
  | cons first rest ih =>
    cases i with
    | zero => exact .cons head rest
    | succ i => exact .cons first (ih i)

namespace Registry.Mirrors

variable {r r' : Registry (Handler ω)}

theorem groups (mirrors : r.Mirrors r') : r'.groups = r.groups := by
  rw [Registry.groups, Registry.groups, map_eq_of_forall₂ (fun _ _ head => head.1) mirrors.accepted]

theorem listeners (mirrors : r.Mirrors r') (group : String) :
    List.Forall₂ Listener.Mirrors (r.listeners group) (r'.listeners group) := by
  have chosen := filter_of_forall₂ (p := fun a => a.group == group)
    (fun _ _ head => by rw [head.1]) mirrors.accepted
  rw [Registry.listeners, Registry.listeners, List.forall₂_map_left_iff, List.forall₂_map_right_iff]
  exact chosen.imp fun _ _ head => head.2

theorem topics (mirrors : r.Mirrors r') (group : String) :
    (r'.listeners group).flatMap Listener.topics = (r.listeners group).flatMap Listener.topics := by
  rw [List.flatMap_def, List.flatMap_def,
    map_eq_of_forall₂ (fun _ _ head => head.topics) (mirrors.listeners group)]

theorem matching (mirrors : r.Mirrors r') (group topic : String) (ns : Option String) :
    List.Forall₂ Listener.Mirrors (r.matching group topic ns) (r'.matching group topic ns) := by
  refine filter_of_forall₂ (fun l l' head => ?_) (mirrors.listeners group)
  unfold Listener.takes
  rw [head.topics, head.namespaces]

theorem reservedCollision?_eq (mirrors : r.Mirrors r') (f : FailureTopics) :
    r'.reservedCollision? f = r.reservedCollision? f := by
  unfold reservedCollision?
  rw [mirrors.groups]
  congr 1
  funext group
  rw [mirrors.topics]

end Registry.Mirrors

namespace Worker

/-- Two workers that differ in nothing but in how their handlers fail. -/
structure Mirrors (w w' : Worker ω) : Prop where
  group : w'.group = w.group
  topics : w'.topics = w.topics
  brokers : w'.brokers = w.brokers
  publisher : w'.publisher = w.publisher
  settings : w'.settings = w.settings
  timer : w'.timer = w.timer
  registry : w.registry.Mirrors w'.registry

/-- Mirrored workers come to the same state and leave the same world, and what happens is alike. -/
def SteppedAlike (stepped stepped' : Stepped ω κ) : Prop :=
  stepped'.1 = stepped.1 ∧ stepped'.2.1 = stepped.2.1 ∧
    List.Forall₂ Occurrence.Alike stepped.2.2 stepped'.2.2

theorem SteppedAlike.refl (stepped : Stepped ω κ) : SteppedAlike stepped stepped :=
  ⟨rfl, rfl, alike_refl _⟩

namespace Mirrors

variable {w w' : Worker ω}

/-- Mirrored workers offer an event to the same listeners, which fail in the same calls. -/
theorem offer (mirrors : w.Mirrors w') (s : WorkerState κ) (c : κ) (d : Delivery) (r : Routed) (ran : Nat)
    (world : ω) : SteppedAlike (w.offer s c d r ran world) (w'.offer s c d r ran world) := by
  have listeners : List.Forall₂ Listener.Mirrors (w.listenersFor r) (w'.listenersFor r) :=
    mirrors.registry.matching ..
  have next := rel_getElem?_of_forall₂ listeners ran
  unfold Worker.offer
  cases chosen : (w.listenersFor r)[ran]? with
  | none =>
    rw [chosen] at next
    cases chosen' : (w'.listenersFor r)[ran]? with
    | some l' => rw [chosen'] at next; cases next
    | none => exact .refl _
  | some l =>
    rw [chosen] at next
    cases chosen' : (w'.listenersFor r)[ran]? with
    | none => rw [chosen'] at next; cases next
    | some l' =>
      rw [chosen'] at next
      cases next with
      | some head =>
        have effects := head.handler.effects r.event world
        have success := head.handler.success r.event world
        rcases answer : l.handler.handle r.event world with ⟨result, after, log⟩
        rcases answer' : l'.handler.handle r.event world with ⟨result', after', log'⟩
        simp only [answer, answer'] at effects success
        cases effects
        simp only [answer, answer', head.handler.name]
        cases result with
        | ok =>
          rw [success.mpr rfl]
          exact .refl _
        | error f =>
          cases result' with
          | ok => cases success.mp rfl
          | error f' =>
            refine ⟨rfl, rfl, .cons (.failed ..) ?_⟩
            exact List.rel_append (alike_refl _) (.cons (.reported ..) .nil)

/-- Mirrored workers make the same steps. -/
theorem step (mirrors : w.Mirrors w') (h : Host ω κ) (s : WorkerState κ) (world : ω) :
    SteppedAlike (w.step h s world) (w'.step h s world) := by
  obtain ⟨phase, stats, streak⟩ := s
  cases phase with
  | offering c d r ran => exact mirrors.offer ..
  | _ =>
    obtain ⟨group, topics, brokers, registry, publisher, settings, timer⟩ := w
    obtain ⟨group', topics', brokers', registry', publisher', settings', timer'⟩ := w'
    obtain ⟨rfl, rfl, rfl, rfl, rfl, rfl, -⟩ := mirrors
    exact .refl _

end Mirrors

end Worker

/-- The same step in the same world, in which what happened is alike. -/
structure Move.Alike (m m' : Move ω κ) : Prop where
  before : m'.before = m.before
  found : m'.found = m.found
  after : m'.after = m.after
  left : m'.left = m.left
  happened : List.Forall₂ Occurrence.Alike m.happened m'.happened

/-- What a worker does in the same state and world is alike. -/
theorem Worker.Mirrors.move {w w' : Worker ω} (mirrors : w.Mirrors w') {h : Host ω κ}
    {s s' : WorkerState κ} {world world' : ω} {happened : List Occurrence}
    (made : w.step h s world = (s', world', happened)) :
    ∃ happened', w'.step h s world = (s', world', happened') ∧
      Move.Alike ⟨s, world, s', world', happened⟩ ⟨s, world, s', world', happened'⟩ := by
  obtain ⟨state, left, alike⟩ := mirrors.step h s world
  rw [made] at state left alike
  rcases made' : w'.step h s world with ⟨s'', world'', happened'⟩
  rw [made'] at state left alike
  cases state
  cases left
  exact ⟨happened', rfl, rfl, rfl, rfl, rfl, alike⟩

theorem Worker.Mirrors.run {w w' : Worker ω} (mirrors : w.Mirrors w') (h : Host ω κ) (fuel : Nat)
    (s : WorkerState κ) (world : ω) :
    SteppedAlike (w.run h fuel s world) (w'.run h fuel s world) := by
  induction fuel generalizing s world with
  | zero => exact .refl _
  | succ fuel ih =>
    unfold Worker.run
    cases s.exit? with
    | some exit => exact .refl _
    | none =>
      rcases made : w.step h s world with ⟨s', world', happened⟩
      obtain ⟨happened', made', same⟩ := mirrors.move made
      obtain ⟨state, left, later⟩ := ih s' world'
      simp only [made']
      exact ⟨state, left, List.rel_append same.happened later⟩

/-- Mirrored workers make the same moves in the same worlds. -/
theorem Worker.Mirrors.makes {w w' : Worker ω} (mirrors : w.Mirrors w') {h : Host ω κ}
    {start s : WorkerState κ} {moves : List (Move ω κ)} (run : w.Makes h start moves s) :
    ∃ moves', w'.Makes h start moves' s ∧ List.Forall₂ Move.Alike moves moves' := by
  induction run with
  | start => exact ⟨[], .start, .nil⟩
  | step _ made ih =>
    obtain ⟨moves', run', alike⟩ := ih
    obtain ⟨happened', made', same⟩ := mirrors.move made
    exact ⟨_, run'.step made', List.rel_append alike (.cons same .nil)⟩

namespace Pipeline

/-- Two pipelines in one world with mirrored workers, one by one, in the same states. -/
structure Mirrors (line line' : Pipeline ω κ) : Prop where
  crew : List.Forall₂ (fun a b => a.1.Mirrors b.1 ∧ b.2 = a.2) line.crew line'.crew
  world : line'.world = line.world

/-- The same worker met something alike. -/
def MetAlike (met met' : Nat × Occurrence) : Prop := met'.1 = met.1 ∧ met.2.Alike met'.2

/-- The same worker made a move that is alike. -/
def MovedAlike (made made' : Nat × Move ω κ) : Prop := made'.1 = made.1 ∧ made.2.Alike made'.2

namespace Mirrors

variable {line line' : Pipeline ω κ} {i : Nat} {w : Worker ω} {s : WorkerState κ}

theorem start {workers workers' : List (Worker ω)}
    (mirrors : List.Forall₂ Worker.Mirrors workers workers') (world : ω) :
    (Pipeline.start workers world : Pipeline ω κ).Mirrors (.start workers' world) := by
  refine ⟨?_, rfl⟩
  rw [Pipeline.start, Pipeline.start, List.forall₂_map_left_iff, List.forall₂_map_right_iff]
  exact mirrors.imp fun _ _ head => ⟨head, rfl⟩

theorem chosen (mirrors : line.Mirrors line') (chosen : line.crew[i]? = some (w, s)) :
    ∃ w', line'.crew[i]? = some (w', s) ∧ w.Mirrors w' := by
  have there := rel_getElem?_of_forall₂ mirrors.crew i
  rw [chosen] at there
  cases chosen' : line'.crew[i]? with
  | none => rw [chosen'] at there; cases there
  | some entry =>
    obtain ⟨w', s'⟩ := entry
    rw [chosen'] at there
    cases there with
    | some head =>
      obtain ⟨agrees, rfl⟩ := head
      exact ⟨w', rfl, agrees⟩

theorem set (mirrors : line.Mirrors line') {w' : Worker ω} (same : w.Mirrors w') (i : Nat)
    (s : WorkerState κ) (world : ω) :
    Mirrors ⟨line.crew.set i (w, s), world⟩ ⟨line'.crew.set i (w', s), world⟩ where
  crew := by
    apply set_of_forall₂ mirrors.crew
    exact ⟨same, rfl⟩
  world := rfl

/-- The same step of mirrored pipelines. -/
theorem step (mirrors : line.Mirrors line') (h : Host ω κ) (i : Nat) :
    (line.step h i).1.Mirrors (line'.step h i).1 ∧
      List.Forall₂ MetAlike (line.step h i).2 (line'.step h i).2 := by
  unfold Pipeline.step
  rw [mirrors.world]
  cases chosen : line.crew[i]? with
  | none =>
    have there := rel_getElem?_of_forall₂ mirrors.crew i
    rw [chosen] at there
    cases chosen' : line'.crew[i]? with
    | none => exact ⟨mirrors, .nil⟩
    | some => rw [chosen'] at there; cases there
  | some entry =>
    obtain ⟨w, s⟩ := entry
    obtain ⟨w', chosen', same⟩ := mirrors.chosen chosen
    rcases made : w.step h s line.world with ⟨s', world', happened⟩
    obtain ⟨happened', made', alike⟩ := same.move made
    simp only [chosen', made, made']
    refine ⟨mirrors.set same i s' world', ?_⟩
    rw [List.forall₂_map_left_iff, List.forall₂_map_right_iff]
    exact alike.happened.imp fun _ _ head => ⟨rfl, head⟩

theorem exec (mirrors : line.Mirrors line') (h : Host ω κ) (schedule : List Nat) :
    (line.exec h schedule).1.Mirrors (line'.exec h schedule).1 ∧
      List.Forall₂ MetAlike (line.exec h schedule).2 (line'.exec h schedule).2 := by
  induction schedule generalizing line line' with
  | nil => exact ⟨mirrors, .nil⟩
  | cons i schedule ih =>
    obtain ⟨next, met⟩ := mirrors.step h i
    obtain ⟨last, later⟩ := ih next
    exact ⟨last, List.rel_append met later⟩

theorem tearDown (mirrors : line.Mirrors line') (chosen : line.crew[i]? = some (w, s)) (text : String) :
    (line.tearDown i text).Mirrors (line'.tearDown i text) := by
  obtain ⟨w', chosen', same⟩ := mirrors.chosen chosen
  rw [tearDown_eq chosen, tearDown_eq chosen', mirrors.world]
  exact mirrors.set same ..

/-- Where the workers of mirrored pipelines stand. -/
theorem standing (mirrors : line.Mirrors line') :
    line'.crew.map (fun entry => (entry.1.group, entry.2)) =
      line.crew.map fun entry => (entry.1.group, entry.2) :=
  map_eq_of_forall₂ (fun _ _ head => by rw [head.1.group, head.2]) mirrors.crew

theorem states (mirrors : line.Mirrors line') :
    line'.crew.map Prod.snd = line.crew.map Prod.snd :=
  map_eq_of_forall₂ (fun _ _ head => head.2) mirrors.crew

theorem report (mirrors : line.Mirrors line') : line'.report = line.report := by
  have reports (line : Pipeline ω κ) : line.report =
      (line.crew.map fun entry => (entry.1.group, entry.2)).filterMap fun entry =>
        entry.2.exit?.map fun exit => (entry.1, exit) := by
    rw [List.filterMap_map]
    rfl
  rw [reports, reports, mirrors.standing]

theorem ended (mirrors : line.Mirrors line') : line'.ended = line.ended := by
  have ends (line : Pipeline ω κ) : line.ended =
      (line.crew.map fun entry => (entry.1.group, entry.2)).all fun entry => entry.2.exit?.isSome := by
    rw [List.all_map]
    rfl
  rw [ends, ends, mirrors.standing]

/-- Mirrored pipelines unfold alike while others do the same in between. -/
theorem unfolds {start start' : Pipeline ω κ} (mirrors : start.Mirrors start') {h : Host ω κ}
    {others : ω → ω → Prop} {moves : List (Nat × Move ω κ)} {torn : List (Nat × String)}
    (run : Unfolds h others start moves torn line) :
    ∃ moves' line', Unfolds h others start' moves' torn line' ∧
      List.Forall₂ MovedAlike moves moves' ∧ line.Mirrors line' := by
  induction run with
  | start => exact ⟨[], start', .start, .nil, mirrors⟩
  | @moved moves torn line i w s s' world' happened _ chosen living made ih =>
    obtain ⟨moves', line', run', alike, now⟩ := ih
    obtain ⟨w', chosen', same⟩ := now.chosen chosen
    obtain ⟨happened', made', move⟩ := same.move made
    rw [← now.world] at made' move
    refine ⟨_, _, run'.moved chosen' living made', ?_, now.set same i s' world'⟩
    exact List.rel_append alike (.cons ⟨rfl, by rw [← now.world]; exact move⟩ .nil)
  | torn _ chosen living ih =>
    obtain ⟨moves', line', run', alike, now⟩ := ih
    obtain ⟨w', chosen', same⟩ := now.chosen chosen
    exact ⟨_, _, run'.torn chosen' living, alike, now.tearDown chosen _⟩
  | changed _ change ih =>
    obtain ⟨moves', line', run', alike, now⟩ := ih
    rw [← now.world] at change
    exact ⟨_, _, run'.changed change, alike, now.crew, rfl⟩

end Mirrors

end Pipeline

namespace Registry.Mirrors

variable {r r' : Registry (Handler ω)}

/-- A worker with mirrored listeners instead of its own. -/
theorem worker (mirrors : r.Mirrors r') {w : Worker ω} (own : w.registry = r) :
    w.Mirrors { w with registry := r' } :=
  ⟨rfl, rfl, rfl, rfl, rfl, rfl, own ▸ mirrors⟩

/-- A plan with mirrored listeners instead of its own has mirrored workers, or is refused for the same
name. -/
theorem workers (mirrors : r.Mirrors r') {p : Plan ω} (own : p.registry = r) :
    (∃ name, p.workers = .error name ∧ ({ p with registry := r' } : Plan ω).workers = .error name) ∨
      ∃ crew crew', p.workers = .ok crew ∧
        ({ p with registry := r' } : Plan ω).workers = .ok crew' ∧
        List.Forall₂ Worker.Mirrors crew crew' := by
  subst own
  unfold Plan.workers
  dsimp only
  rw [mirrors.reservedCollision?_eq]
  cases p.registry.reservedCollision? p.publisher.failureTopics with
  | some name => exact .inl ⟨name, rfl, rfl⟩
  | none =>
    refine .inr ⟨_, _, rfl, rfl, ?_⟩
    rw [mirrors.groups]
    refine List.rel_append ?_ (.cons ⟨rfl, rfl, rfl, rfl, rfl, rfl, mirrors⟩ .nil)
    rw [List.forall₂_map_left_iff, List.forall₂_map_right_iff]
    refine List.forall₂_same.mpr fun group _ => ⟨rfl, ?_, rfl, rfl, rfl, rfl, mirrors⟩
    rw [Worker.business, Worker.business, Registry.topicsFor, mirrors.topics]
    rfl

/-- A run of a plan with mirrored listeners. -/
def RanAlike (ran ran' : Verdict × ω × List (Nat × Occurrence) × List LogEntry) : Prop :=
  ran'.1 = ran.1 ∧ ran'.2.1 = ran.2.1 ∧
    List.Forall₂ Pipeline.MetAlike ran.2.2.1 ran'.2.2.1 ∧ ran'.2.2.2 = ran.2.2.2

theorem run (mirrors : r.Mirrors r') {p : Plan ω} (own : p.registry = r) (h : Host ω κ)
    (schedule : List Nat) (world : ω) :
    RanAlike (p.run h schedule world) (({ p with registry := r' } : Plan ω).run h schedule world) := by
  unfold Plan.run
  obtain ⟨name, refused, refused'⟩ | ⟨crew, crew', accepted, accepted', same⟩ := mirrors.workers own
  · rw [refused, refused']
    exact ⟨rfl, rfl, .nil, rfl⟩
  · rw [accepted, accepted']
    obtain ⟨now, met⟩ := (Pipeline.Mirrors.start same world).exec h schedule
    refine ⟨?_, ?_, met, ?_⟩ <;> dsimp only [Plan.conclude] <;> rw [now.ended, now.report, now.world]

/-- How a handler fails reaches nothing but the entry about it. Whatever a worker does, and whatever the
workers of a plan do, in some order and with others changing the world and tearing workers down in
between, they do with mirrored handlers too: in the same states and worlds they make the same calls,
settle messages with the same outcomes, publish the same records, commit, count and pause alike, and
return the same. -/
theorem causes_do_not_matter (mirrors : r.Mirrors r') (h : Host ω κ) :
    (∀ w : Worker ω, w.registry = r →
      (∀ start moves s, w.Makes h start moves s →
        ∃ moves', ({ w with registry := r' } : Worker ω).Makes h start moves' s ∧
          List.Forall₂ Move.Alike moves moves') ∧
      ∀ fuel s world,
        Worker.SteppedAlike (w.run h fuel s world)
          (({ w with registry := r' } : Worker ω).run h fuel s world)) ∧
    ∀ p : Plan ω, p.registry = r →
      (∀ schedule world,
        RanAlike (p.run h schedule world)
          (({ p with registry := r' } : Plan ω).run h schedule world)) ∧
      ∀ crew, p.workers = .ok crew →
        ∃ crew', ({ p with registry := r' } : Plan ω).workers = .ok crew' ∧
          ∀ others world moves torn line,
            Pipeline.Unfolds h others (.start crew world) moves torn line →
            ∃ moves' line', Pipeline.Unfolds h others (.start crew' world) moves' torn line' ∧
              List.Forall₂ Pipeline.MovedAlike moves moves' ∧ line'.world = line.world ∧
              line'.crew.map Prod.snd = line.crew.map Prod.snd ∧ line'.report = line.report := by
  refine ⟨fun w own => ⟨fun start moves s run => (mirrors.worker own).makes run,
      fun fuel s world => (mirrors.worker own).run h fuel s world⟩,
    fun p own => ⟨fun schedule world => mirrors.run own h schedule world, fun crew accepted => ?_⟩⟩
  obtain ⟨name, refused, -⟩ | ⟨_, crew', accepted', other, same⟩ := mirrors.workers own
  · rw [accepted] at refused
    cases refused
  · rw [accepted] at accepted'
    cases accepted'
    refine ⟨crew', other, fun others world moves torn line run => ?_⟩
    obtain ⟨moves', line', run', alike, now⟩ := (Pipeline.Mirrors.start same world).unfolds run
    exact ⟨moves', line', run', alike, now.world, now.states, now.report⟩

end Registry.Mirrors

namespace Sample

open Memory

/-- The listener of the sample with a handler that is torn down on every event. -/
def tornRegistry : Registry (Handler (World Unit)) :=
  registry.map fun handler => ⟨handler.name, fun _ world => (.error (.panicked none), world, [])⟩

theorem registry_mirrors : registry.Mirrors tornRegistry :=
  ⟨rfl, .cons ⟨rfl, rfl, rfl, rfl, fun _ _ => rfl, fun _ _ => ⟨nofun, nofun⟩⟩ .nil⟩

end Sample

namespace Registry

/-- The worker of the sample leaves the same broker behind whether its handler answers an error or is torn
down. -/
theorem sample_causes_do_not_matter :
    (({ Sample.worker with registry := Sample.tornRegistry } : Worker (Memory.World Unit)).run
        Memory.World.host 7 .initial Sample.world).2.1 =
      (Sample.worker.run Memory.World.host 7 .initial Sample.world).2.1 ∧
    (Sample.worker.run Memory.World.host 7 .initial Sample.world).2.1.broker.arrivals.map Prod.fst =
      ["orders", "shop_failure_topic"] := by
  obtain ⟨alone, -⟩ := Sample.registry_mirrors.causes_do_not_matter Memory.World.host
  obtain ⟨-, left, -⟩ := (alone Sample.worker rfl).2 7 .initial Sample.world
  exact ⟨left, rfl⟩

end Registry

end EventPipeline
