import Mathlib.Data.List.Induction
import EventPipeline.Registry

/-! # How a registry came about

Whatever can be asked of a registry is a question about the registrations that it accepted. A
`Registry.History` tells how they got there: it is a sequence of requests with the answers that they
got. Every sequence of requests has one, a refused request changes nothing, and in the end the registry
holds what was accepted, in the order of the requests (`Registry.History.accepted_eq`).
-/

namespace EventPipeline

variable {η : Type}

/-- A registration that is asked for. -/
structure Request (η : Type) where
  group : String
  topics : List String
  namespaces : Option (List String)
  handler : η

/-- The registration that is added when a request is accepted. -/
def Request.registration (q : Request η) : Registration η :=
  ⟨q.group, ⟨Names.ofList q.topics, Registry.namespaceSet q.namespaces, q.handler⟩⟩

theorem Request.mem_topics {q : Request η} {topic : String} :
    topic ∈ q.registration.listener.topics ↔ topic ∈ q.topics := Names.mem_ofList

/-- A listener takes the events of its topics, and among them only those of its namespaces if it names
any. -/
theorem Listener.takes_iff {l : Listener η} {topic : String} {ns : Option String} :
    l.takes topic ns = true ↔
      topic ∈ l.topics ∧ ∀ allowed, l.namespaces = some allowed → ∃ name ∈ allowed, ns = some name := by
  obtain ⟨topics, namespaces, handler⟩ := l
  cases namespaces <;> cases ns <;> simp [takes]

namespace Registry

variable {r r' start : Registry η} {group topic : String}

/-! ### What is asked of a registry -/

theorem mem_groups : group ∈ r.groups ↔ ∃ a ∈ r.accepted, a.group = group := by
  simp [groups]

theorem mem_listeners {l : Listener η} :
    l ∈ r.listeners group ↔ ∃ a ∈ r.accepted, a.group = group ∧ a.listener = l := by
  simp [listeners, and_assoc]

theorem mem_matching {ns : Option String} {l : Listener η} :
    l ∈ r.matching group topic ns ↔
      (∃ a ∈ r.accepted, a.group = group ∧ a.listener = l) ∧ l.takes topic ns = true := by
  rw [matching, List.mem_filter, mem_listeners]

theorem mem_topicsFor :
    topic ∈ r.topicsFor group ↔ ∃ a ∈ r.accepted, a.group = group ∧ topic ∈ a.listener.topics := by
  rw [topicsFor, Names.mem_ofList, List.mem_flatMap]
  constructor
  · rintro ⟨l, listens, named⟩
    obtain ⟨a, accepted, ours, rfl⟩ := mem_listeners.mp listens
    exact ⟨a, accepted, ours, named⟩
  · rintro ⟨a, accepted, ours, named⟩
    exact ⟨a.listener, mem_listeners.mpr ⟨a, accepted, ours, rfl⟩, named⟩

/-- The listeners that are asked are registered. -/
theorem exists_of_mem_matching {ns : Option String} {l : Listener η}
    (listens : l ∈ r.matching group topic ns) : ∃ a ∈ r.accepted, a.group = group ∧ a.listener = l :=
  (mem_matching.mp listens).1

/-! ### Requests -/

/-- What a registry answers to a request. -/
def answer (r : Registry η) (q : Request η) : Except RegistryError (Registry η) :=
  r.register q.group q.topics q.namespaces q.handler

theorem answer_eq_ok_iff {q : Request η} :
    r.answer q = .ok r' ↔ r.refusal? q.group q.topics = none ∧
      r' = { r with accepted := r.accepted ++ [q.registration] } := by
  unfold answer register
  cases refusal : r.refusal? q.group q.topics with
  | none => simp [Request.registration, eq_comm]
  | some e => simp

/-- Requests were made one after another, each with the refusal that it met or none, and led from one
registry to another. -/
inductive History (start : Registry η) : List (Request η × Option RegistryError) → Registry η → Prop where
  | start : History start [] start
  | accepted {asked : List (Request η × Option RegistryError)} {r r' : Registry η} {q : Request η}
    (earlier : History start asked r) (answers : r.answer q = .ok r') :
    History start (asked ++ [(q, none)]) r'
  | refused {asked : List (Request η × Option RegistryError)} {r : Registry η} {q : Request η}
    {e : RegistryError} (earlier : History start asked r) (answers : r.answer q = .error e) :
    History start (asked ++ [(q, some e)]) r

/-- The requests that were accepted. -/
def granted (asked : List (Request η × Option RegistryError)) : List (Request η) :=
  (asked.filter fun answered => answered.2.isNone).map Prod.fst

theorem mem_granted {asked : List (Request η × Option RegistryError)} {q : Request η} :
    q ∈ granted asked ↔ (q, none) ∈ asked := by
  simp [granted]

namespace History

variable {asked : List (Request η × Option RegistryError)}

/-- Any requests can be made. -/
theorem exists_of_requests (start : Registry η) (requests : List (Request η)) :
    ∃ asked r, History start asked r ∧ asked.map Prod.fst = requests := by
  induction requests using List.reverseRecOn with
  | nil => exact ⟨[], start, .start, rfl⟩
  | append_singleton requests q ih =>
    obtain ⟨asked, r, history, rfl⟩ := ih
    cases answers : r.answer q with
    | ok r' => exact ⟨_, _, history.accepted answers, by simp⟩
    | error e => exact ⟨_, _, history.refused answers, by simp⟩

theorem reserved_eq (history : History start asked r) : r.reserved = start.reserved := by
  induction history with
  | start => rfl
  | accepted _ answers ih =>
    obtain ⟨-, rfl⟩ := answer_eq_ok_iff.mp answers
    exact ih
  | refused _ _ ih => exact ih

/-- A registry holds what it was given first and what was accepted, in the order of the requests. -/
theorem accepted_eq (history : History start asked r) :
    r.accepted = start.accepted ++ (granted asked).map Request.registration := by
  induction history with
  | start => exact (List.append_nil _).symm
  | accepted _ answers ih =>
    obtain ⟨-, rfl⟩ := answer_eq_ok_iff.mp answers
    simp [ih, granted]
  | refused _ _ ih => simpa [granted] using ih

theorem mem_accepted (history : History start asked r) (fresh : start.accepted = [])
    {a : Registration η} :
    a ∈ r.accepted ↔ ∃ q, (q, none) ∈ asked ∧ q.registration = a := by
  rw [history.accepted_eq, fresh, List.nil_append, List.mem_map]
  simp only [mem_granted]

/-- A request that was accepted met no refusal, and none of the reserved names stood in its way. -/
theorem refusal?_eq_none (history : History start asked r) {q : Request η} (accepted : (q, none) ∈ asked) :
    start.refusal? q.group q.topics = none := by
  induction history with
  | start => cases accepted
  | accepted earlier answers ih =>
    rcases List.mem_append.mp accepted with before | now
    · exact ih before
    · cases List.mem_singleton.mp now
      have none := (answer_eq_ok_iff.mp answers).1
      rwa [refusal?, earlier.reserved_eq, ← refusal?] at none
  | refused _ _ ih =>
    rcases List.mem_append.mp accepted with before | now
    · exact ih before
    · cases List.mem_singleton.mp now

end History

/-! ### Namespaces -/

/-- A listener that chooses by namespace names some. -/
theorem namespaceSet_ne_nil (namespaces : Option (List String)) : namespaceSet namespaces ≠ some [] := by
  unfold namespaceSet
  split
  · nofun
  · next other => exact other

/-- A listener takes events of a topic, of some namespace or of none, exactly when it names the topic. -/
theorem exists_takes_iff {l : Listener η} (chooses : l.namespaces ≠ some []) :
    (∃ ns, l.takes topic ns = true) ↔ topic ∈ l.topics := by
  simp only [Listener.takes_iff, exists_and_left, and_iff_left_iff_imp]
  intro _
  match chosen : l.namespaces with
  | none => exact ⟨none, nofun⟩
  | some [] => exact absurd chosen chooses
  | some (ns :: rest) =>
    refine ⟨some ns, ?_⟩
    rintro _ ⟨⟩
    exact ⟨ns, List.mem_cons_self .., rfl⟩

/-- The worker of a group has to read a topic exactly when some event of the topic has listeners in the
group. -/
theorem History.mem_topicsFor_iff {asked : List (Request η × Option RegistryError)}
    (history : History start asked r) (fresh : start.accepted = []) :
    topic ∈ r.topicsFor group ↔ ∃ ns, r.matching group topic ns ≠ [] := by
  have chooses {a : Registration η} (accepted : a ∈ r.accepted) : a.listener.namespaces ≠ some [] := by
    obtain ⟨q, -, rfl⟩ := (history.mem_accepted fresh).mp accepted
    exact namespaceSet_ne_nil _
  simp only [mem_topicsFor, ne_eq, List.eq_nil_iff_forall_not_mem, not_forall, not_not, mem_matching]
  constructor
  · rintro ⟨a, accepted, ours, named⟩
    obtain ⟨ns, takes⟩ := (exists_takes_iff (chooses accepted)).mpr named
    exact ⟨ns, a.listener, ⟨a, accepted, ours, rfl⟩, takes⟩
  · rintro ⟨ns, l, ⟨a, accepted, ours, rfl⟩, takes⟩
    exact ⟨a, accepted, ours, (exists_takes_iff (chooses accepted)).mp ⟨ns, takes⟩⟩

end Registry

end EventPipeline
