import EventPipeline.Memory.World
import EventPipeline.Pipeline
import EventPipeline.Proofs.Registry.History

/-! # Names of the retry path in a registry

A registry can refuse the names of a retry path when they are asked for, and every registry is searched
for them before a pipeline starts. The search finds nothing exactly when each accepted registration
spares these names (`Registry.reservedCollision?_eq_none_iff`), so it never finds anything in a registry
that refuses them. Whoever is asked by a registry that is free of these names is asked as a group, and
about a topic, that is not on the retry path (`Registry.spares_of_mem_matching`).
-/

namespace EventPipeline

variable {ω κ η : Type}

namespace FailureTopics

variable {f : FailureTopics} {group name topic : String} {topics : List String}

/-- Neither the group nor any of the topics is a name of the retry path. -/
def Spares (f : FailureTopics) (group : String) (topics : List String) : Prop :=
  group ≠ f.retryGroup ∧ ∀ topic ∈ topics, f.isReservedTopic topic = false

theorem isReservedTopic_iff :
    f.isReservedTopic topic = true ↔ topic = f.retryTopic ∨ topic = f.deadTopic := by
  simp [isReservedTopic]

theorem retryTopic_ne_deadTopic (app : String) :
    (FailureTopics.ofApp app).retryTopic ≠ (FailureTopics.ofApp app).deadTopic := by
  intro same
  have lengths := congrArg String.length same
  rw [ofApp, String.length_append, String.length_append] at lengths
  exact absurd (Nat.add_left_cancel lengths) (by decide)

theorem collision?_eq_none_iff : f.collision? group topics = none ↔ f.Spares group topics := by
  unfold collision? Spares
  split
  · next same => simp [same]
  · next other => simp [other]

theorem collision?_cases (collides : f.collision? group topics = some name) :
    name = group ∧ name = f.retryGroup ∨ name ∈ topics ∧ f.isReservedTopic name = true := by
  unfold collision? at collides
  split at collides
  · next same =>
    cases collides
    exact .inl ⟨rfl, same⟩
  · exact .inr ⟨List.mem_of_find?_eq_some collides, List.find?_some collides⟩

end FailureTopics

namespace Registry

variable {f : FailureTopics} {r start : Registry η} {group name topic : String}

/-- A registry is free of the names of a retry path when all that it accepted spares them. -/
theorem reservedCollision?_eq_none_iff :
    r.reservedCollision? f = none ↔ ∀ a ∈ r.accepted, f.Spares a.group a.listener.topics := by
  simp only [reservedCollision?, List.findSome?_eq_none_iff, FailureTopics.collision?_eq_none_iff,
    mem_groups, FailureTopics.Spares, List.mem_flatMap, mem_listeners]
  constructor
  · intro free a accepted
    obtain ⟨other, unreserved⟩ := free a.group ⟨a, accepted, rfl⟩
    exact ⟨other, fun topic named => unreserved topic ⟨a.listener, ⟨a, accepted, rfl, rfl⟩, named⟩⟩
  · rintro free _ ⟨a, accepted, rfl⟩
    refine ⟨(free a accepted).1, ?_⟩
    rintro topic ⟨_, ⟨a', accepted', -, rfl⟩, named⟩
    exact (free a' accepted').2 topic named

/-- What the search finds is a name that some accepted registration uses. -/
theorem exists_of_reservedCollision? (collides : r.reservedCollision? f = some name) :
    ∃ a ∈ r.accepted, name = a.group ∧ name = f.retryGroup ∨
      name ∈ a.listener.topics ∧ f.isReservedTopic name = true := by
  obtain ⟨group, registered, here⟩ := List.exists_of_findSome?_eq_some collides
  rcases FailureTopics.collision?_cases here with ⟨rfl, retry⟩ | ⟨listed, reserved⟩
  · obtain ⟨a, accepted, rfl⟩ := mem_groups.mp registered
    exact ⟨a, accepted, .inl ⟨rfl, retry⟩⟩
  · obtain ⟨l, listens, named⟩ := List.mem_flatMap.mp listed
    obtain ⟨a, accepted, -, rfl⟩ := mem_listeners.mp listens
    exact ⟨a, accepted, .inr ⟨named, reserved⟩⟩

/-- Listeners are asked as a group, and about a topic, that is not on the retry path. -/
theorem spares_of_mem_matching (free : r.reservedCollision? f = none) {ns : Option String}
    {l : Listener η} (listens : l ∈ r.matching group topic ns) :
    group ≠ f.retryGroup ∧ f.isReservedTopic topic = false := by
  obtain ⟨⟨a, accepted, rfl, rfl⟩, takes⟩ := mem_matching.mp listens
  obtain ⟨other, unreserved⟩ := reservedCollision?_eq_none_iff.mp free a accepted
  exact ⟨other, unreserved topic (Listener.takes_iff.mp takes).1⟩

/-- What a registry accepts spares the names that it reserves. -/
theorem spares_of_refusal? {q : Request η} (reserved : r.reserved = some f)
    (accepted : r.refusal? q.group q.topics = none) :
    f.Spares q.registration.group q.registration.listener.topics := by
  unfold refusal? at accepted
  split at accepted
  · cases accepted
  split at accepted
  · cases accepted
  split at accepted
  · cases accepted
  · rw [reserved] at accepted
    exact FailureTopics.collision?_eq_none_iff.mp (Option.map_eq_none_iff.mp accepted)

namespace History

variable {asked : List (Request η × Option RegistryError)}

/-- A registry that reserves the names of a retry path is free of them whatever it is asked for. -/
theorem reservedCollision?_eq_none (history : History (reserving f) asked r) :
    r.reservedCollision? f = none := by
  rw [reservedCollision?_eq_none_iff]
  intro a accepted
  obtain ⟨q, granted, rfl⟩ := (history.mem_accepted rfl).mp accepted
  exact spares_of_refusal? rfl (history.refusal?_eq_none granted)

/-- A registry has a name of the retry path exactly when a request that uses one was accepted. -/
theorem reservedCollision?_ne_none_iff (history : History start asked r) (fresh : start.accepted = []) :
    r.reservedCollision? f ≠ none ↔ ∃ q, (q, none) ∈ asked ∧
      (q.group = f.retryGroup ∨ f.retryTopic ∈ q.topics ∨ f.deadTopic ∈ q.topics) := by
  have used (q : Request η) : ¬ f.Spares q.registration.group q.registration.listener.topics ↔
      q.group = f.retryGroup ∨ f.retryTopic ∈ q.topics ∨ f.deadTopic ∈ q.topics := by
    simp only [FailureTopics.Spares, Request.mem_topics, not_and_or, ne_eq, not_not, not_forall,
      Bool.not_eq_false, FailureTopics.isReservedTopic_iff, exists_prop, and_or_left, exists_or,
      exists_eq_right]
    rfl
  rw [ne_eq, reservedCollision?_eq_none_iff]
  simp only [not_forall, history.mem_accepted fresh, ← used]
  constructor
  · rintro ⟨_, ⟨q, granted, rfl⟩, uses⟩
    exact ⟨q, granted, uses⟩
  · rintro ⟨q, granted, uses⟩
    exact ⟨_, ⟨q, granted, rfl⟩, uses⟩

end History

end Registry

/-! ### Pipelines that are not started -/

namespace Plan

variable {p : Plan ω} {h : Host ω κ} {schedule : List Nat} {world : ω} {name : String}

/-- A pipeline is refused for a name of the retry path that its registry uses, and then nothing is done. -/
theorem run_of_collision
    (collides : p.registry.reservedCollision? p.publisher.failureTopics = some name) :
    p.run h schedule world = (.refused name, world, [], []) := by
  simp only [run, workers, collides]

theorem run_refused_iff : (p.run h schedule world).1 = .refused name ↔
    p.registry.reservedCollision? p.publisher.failureTopics = some name := by
  constructor
  · intro refused
    cases collides : p.registry.reservedCollision? p.publisher.failureTopics with
    | none =>
      simp only [run, workers, collides, conclude] at refused
      split at refused <;> cases refused
    | some other =>
      rw [run_of_collision collides] at refused
      cases refused
      rfl
  · intro collides
    rw [run_of_collision collides]

end Plan

namespace Registry

/-- A registry that reserves the names of a retry path is free of them after any requests, and a
pipeline of its application is never refused. A registry that reserves nothing has a collision exactly
when it accepted a request that uses the retry group or one of the two topics, and the collision is such a
name. A pipeline that is refused has done nothing: it leaves the world as it was, nothing happened to
workers, and the publisher was not closed. -/
theorem History.reservations_agree {f : FailureTopics} {kept plain : Registry (Handler ω)}
    {asked asked' : List (Request (Handler ω) × Option RegistryError)}
    (reserves : History (reserving f) asked kept) (unreserved : History empty asked' plain) :
    kept.reservedCollision? f = none ∧
    (∀ p : Plan ω, p.registry = kept → p.publisher.failureTopics = f →
      ∀ (h : Host ω κ) schedule world name, (p.run h schedule world).1 ≠ .refused name) ∧
    ((∃ name, plain.reservedCollision? f = some name) ↔ ∃ q, (q, none) ∈ asked' ∧
      (q.group = f.retryGroup ∨ f.retryTopic ∈ q.topics ∨ f.deadTopic ∈ q.topics)) ∧
    (∀ name, plain.reservedCollision? f = some name →
      (name = f.retryGroup ∨ name = f.retryTopic ∨ name = f.deadTopic) ∧
      ∃ q, (q, none) ∈ asked' ∧ (name = q.group ∨ name ∈ q.topics)) ∧
    ∀ (p : Plan ω) (h : Host ω κ) schedule world name,
      ((p.run h schedule world).1 = .refused name ↔
        p.registry.reservedCollision? p.publisher.failureTopics = some name) ∧
      ((p.run h schedule world).1 = .refused name →
        p.run h schedule world = (.refused name, world, [], [])) := by
  have free := reserves.reservedCollision?_eq_none
  refine ⟨free, ?_, ?_, ?_, ?_⟩
  · rintro p rfl rfl h schedule world name refused
    rw [Plan.run_refused_iff, free] at refused
    cases refused
  · rw [← unreserved.reservedCollision?_ne_none_iff rfl, Option.ne_none_iff_exists']
  · intro name collides
    obtain ⟨a, accepted, uses⟩ := exists_of_reservedCollision? collides
    obtain ⟨q, granted, rfl⟩ := (unreserved.mem_accepted rfl).mp accepted
    rcases uses with ⟨group, retry⟩ | ⟨named, reserved⟩
    · exact ⟨.inl retry, q, granted, .inl group⟩
    · exact ⟨.inr (FailureTopics.isReservedTopic_iff.mp reserved), q, granted,
        .inr (Request.mem_topics.mp named)⟩
  · intro p h schedule world name
    exact ⟨Plan.run_refused_iff, fun refused =>
      Plan.run_of_collision (Plan.run_refused_iff.mp refused)⟩

end Registry

namespace Sample

open Memory

/-- A listener for a business topic. -/
def orderRequest : Request (Handler (World Unit)) :=
  ⟨"billing", ["orders"], none, LogHandler.standard.toHandler⟩

/-- A listener that reads what others have given up. -/
def graveRequest : Request (Handler (World Unit)) :=
  ⟨"audit", ["orders", "shop_dead_topic"], none, LogHandler.standard.toHandler⟩

/-- A world in which nothing has happened. -/
def calmWorld : World Unit := ⟨.empty, false, 0, ()⟩

/-- The plan of a shop with these registrations. -/
def shopPlan (reserved : Option FailureTopics) (requests : List (Request (Handler (World Unit)))) :
    Plan (World Unit) :=
  ⟨[], ⟨reserved, requests.map Request.registration⟩, ⟨"shop", World.sink⟩, .standard, .standard,
    .zero⟩

end Sample

namespace Registry

open Memory in
/-- The second request is refused where the names are reserved; where they are not, it is accepted and the
pipeline is refused for it. -/
theorem sample_reservations_agree : ∃ e,
    History (reserving (.ofApp "shop")) [(Sample.orderRequest, none), (Sample.graveRequest, some e)]
      (Sample.shopPlan (some (.ofApp "shop")) [Sample.orderRequest]).registry ∧
    History empty [(Sample.orderRequest, none), (Sample.graveRequest, none)]
      (Sample.shopPlan none [Sample.orderRequest, Sample.graveRequest]).registry ∧
    (Sample.shopPlan (some (.ofApp "shop")) [Sample.orderRequest]).registry.reservedCollision?
      (.ofApp "shop") = none ∧
    (Sample.shopPlan none [Sample.orderRequest, Sample.graveRequest]).run World.host [] Sample.calmWorld =
      (.refused "shop_dead_topic", Sample.calmWorld, [], []) := by
  have kept : History (reserving (.ofApp "shop"))
      [(Sample.orderRequest, none), (Sample.graveRequest, some (.reservedName "shop_dead_topic"))]
      (Sample.shopPlan (some (.ofApp "shop")) [Sample.orderRequest]).registry :=
    (History.start.accepted rfl).refused rfl
  have plain : History empty [(Sample.orderRequest, none), (Sample.graveRequest, none)]
      (Sample.shopPlan none [Sample.orderRequest, Sample.graveRequest]).registry :=
    (History.start.accepted rfl).accepted rfl
  obtain ⟨free, -, -, -, refuses⟩ := kept.reservations_agree plain
  obtain ⟨refused, nothing⟩ := refuses
    (Sample.shopPlan none [Sample.orderRequest, Sample.graveRequest]) World.host []
    Sample.calmWorld "shop_dead_topic"
  exact ⟨_, kept, plain, free, nothing (refused.mpr rfl)⟩

end Registry

end EventPipeline
