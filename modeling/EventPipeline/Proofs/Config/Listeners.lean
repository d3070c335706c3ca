import Mathlib.Data.List.Forall2
import EventPipeline.Proofs.Config.Loading
import EventPipeline.Proofs.Registry.Contents

/-! # The listeners of a configuration

A configuration is checked when it is loaded, and a registry checks its listeners again when they are
registered. The first check leaves little to the second: a listener of a valid configuration has a group,
topics and a handler that is known (`ListenerEntry.fault?_eq_none_iff`), so if it is refused, it is for an
empty topic or a reserved name (`ListenerEntry.refusal?_eq_some_iff`). Listeners are registered one after
another, and the first that is refused ends it (`Config.foldlM_register`); if there is none, the registry
holds what the configuration lists (`Config.registry_of_valid`).
-/

namespace EventPipeline

/-- `log` logs under the standard label, and `log:` with a text logs under that text. -/
theorem labelOf?_eq_some_iff {handler label : String} : labelOf? handler = some label ↔
    handler = "log" ∧ label = "event" ∨ label ≠ "" ∧ handler = "log:" ++ label := by
  constructor
  · intro named
    unfold labelOf? at named
    split at named
    · next rest spelled =>
      split at named
      · cases named
        exact .inl ⟨String.toList_injective spelled, rfl⟩
      · next c cs =>
        cases named
        refine .inr ⟨by simp, String.toList_injective ?_⟩
        simp [spelled]
      · cases named
    · cases named
  · rintro (⟨rfl, rfl⟩ | ⟨some, rfl⟩)
    · rfl
    · obtain ⟨c, cs, spelled⟩ := List.exists_cons_of_ne_nil (mt String.toList_eq_nil_iff.mp some)
      have same : ("log:" ++ label).toList = 'l' :: 'o' :: 'g' :: ':' :: c :: cs := by
        rw [String.toList_append, spelled]
        rfl
      simp only [labelOf?, same]
      rw [← spelled, String.ofList_toList]

theorem Names.ofList_eq_nil_iff {names : List String} : Names.ofList names = [] ↔ names = [] := by
  simp [List.eq_nil_iff_forall_not_mem]

namespace Registry

variable {namespaces : Option (List String)}

theorem namespaceSet_eq_none_iff :
    namespaceSet namespaces = none ↔ namespaces = none ∨ namespaces = some [] := by
  unfold namespaceSet
  split
  · next empty =>
    obtain ⟨listed, rfl, nothing⟩ := Option.map_eq_some_iff.mp empty
    simp [Names.ofList_eq_nil_iff.mp nothing]
  · next other =>
    rw [Option.map_eq_none_iff, iff_self_or]
    rintro rfl
    exact absurd rfl other

theorem eq_of_namespaceSet {names : List String} (set : namespaceSet namespaces = some names) :
    ∃ listed, namespaces = some listed ∧ names = Names.ofList listed := by
  unfold namespaceSet at set
  split at set
  · cases set
  · obtain ⟨listed, given, rfl⟩ := Option.map_eq_some_iff.mp set
    exact ⟨listed, given, rfl⟩

/-- A registry without the names of a retry path has no group and no topic of such a name. -/
theorem spares_of_mem_groups {η : Type} {r : Registry η} {f : FailureTopics} {group : String}
    (free : r.reservedCollision? f = none) (registered : group ∈ r.groups) :
    f.Spares group (r.topicsFor group) := by
  have spares := reservedCollision?_eq_none_iff.mp free
  obtain ⟨a, accepted, rfl⟩ := mem_groups.mp registered
  refine ⟨(spares a accepted).1, fun topic taken => ?_⟩
  obtain ⟨a', accepted', -, listed⟩ := mem_topicsFor.mp taken
  exact (spares a' accepted').2 topic listed

end Registry

namespace ListenerEntry

variable {l : ListenerEntry} {f : FailureTopics} {e : RegistryError}

/-- What a listener asks of a registry, if its handler is known. -/
def request (l : ListenerEntry) : Request LogHandler :=
  ⟨l.group, l.topics, l.namespaces, ⟨(labelOf? l.handler).getD LogHandler.standard.label⟩⟩

theorem fault?_eq_none_iff :
    l.fault? = none ↔ l.group ≠ "" ∧ l.topics ≠ [] ∧ (labelOf? l.handler).isSome = true := by
  unfold fault?
  split_ifs with incomplete unknown
  · simp only [false_iff]
    tauto
  · rw [Option.isNone_iff_eq_none] at unknown
    simp [unknown]
  · rw [not_or] at incomplete
    simpa [incomplete, Option.isSome_iff_ne_none] using unknown

/-! ### Refusals -/

/-- Whether a listener uses a name that is reserved, as its group or as one of its topics. -/
def UsesReserved (f : FailureTopics) (l : ListenerEntry) : Prop :=
  l.group = f.retryGroup ∨ f.retryTopic ∈ l.topics ∨ f.deadTopic ∈ l.topics

instance (f : FailureTopics) (l : ListenerEntry) : Decidable (l.UsesReserved f) :=
  inferInstanceAs (Decidable (_ ∨ _ ∨ _))

/-- What is said of a listener that is refused though it has a group and topics: an empty topic comes before
reserved names, and of these the group comes before the topics, which come in increasing order. -/
inductive Refused (f : FailureTopics) (l : ListenerEntry) : RegistryError → Prop where
  | emptyTopic (unnamed : "" ∈ l.topics) : Refused f l (.emptyTopic l.group)
  | reservedGroup (named : "" ∉ l.topics) (retry : l.group = f.retryGroup) :
    Refused f l (.reservedName l.group)
  | reservedTopic {topic : String} (named : "" ∉ l.topics) (other : l.group ≠ f.retryGroup)
    (listed : topic ∈ l.topics) (used : topic = f.retryTopic ∨ topic = f.deadTopic)
    (first : ∀ other ∈ l.topics, other = f.retryTopic ∨ other = f.deadTopic → topic ≤ other) :
    Refused f l (.reservedName topic)

/-- Why a listener would be refused by a registry that reserves the names of a retry path. -/
def refusal? (f : FailureTopics) (l : ListenerEntry) : Option RegistryError :=
  (Registry.reserving f : Registry LogHandler).refusal? l.group l.topics

theorem refusal?_eq {r : Registry LogHandler} (reserves : r.reserved = some f) :
    r.refusal? l.group l.topics = l.refusal? f := by
  rw [refusal?, Registry.refusal?, reserves]
  rfl

section

variable (complete : l.fault? = none)
include complete

theorem refusal?_eq_some_iff : l.refusal? f = some e ↔ l.Refused f e := by
  obtain ⟨group, topics, -⟩ := fault?_eq_none_iff.mp complete
  refine (Registry.refusal?_eq_some_iff (q := l.request)).trans ?_
  constructor
  · intro refused
    cases refused with
    | emptyGroup unnamed => exact absurd unnamed group
    | noTopics _ nothing => exact absurd nothing topics
    | emptyTopic _ unnamed => exact .emptyTopic unnamed
    | reservedGroup proper reserves retry =>
      cases reserves
      exact .reservedGroup proper.2.2 retry
    | reservedTopic proper reserves other listed used first =>
      cases reserves
      simp only [FailureTopics.isReservedTopic_iff] at used first
      exact .reservedTopic proper.2.2 other listed used first
  · intro refused
    cases refused with
    | emptyTopic unnamed => exact .emptyTopic group unnamed
    | reservedGroup named retry => exact .reservedGroup ⟨group, topics, named⟩ rfl retry
    | reservedTopic named other listed used first =>
      simp only [← FailureTopics.isReservedTopic_iff] at used first
      exact .reservedTopic ⟨group, topics, named⟩ rfl other listed used first

theorem refusal?_eq_none_iff : l.refusal? f = none ↔ ¬ ("" ∈ l.topics ∨ l.UsesReserved f) := by
  obtain ⟨group, topics, -⟩ := fault?_eq_none_iff.mp complete
  refine iff_not_comm.mp (Iff.trans ?_ (Registry.refusal?_ne_none_iff (q := l.request)).symm)
  simp [request, group, topics, Request.UsesReserved, Registry.reserving, UsesReserved]

end

/-! ### Registrations -/

/-- A listener is registered as it is configured. -/
structure Registers (l : ListenerEntry) (x : Listener LogHandler) : Prop where
  /-- The topics are a set. -/
  topics : x.topics.Pairwise (· < ·) ∧ ∀ topic, topic ∈ x.topics ↔ topic ∈ l.topics
  /-- No list of namespaces and an empty one are no filter, -/
  unfiltered : x.namespaces = none ↔ l.namespaces = none ∨ l.namespaces = some []
  /-- and any other list is the set of its namespaces. -/
  filtered : ∀ names, x.namespaces = some names → names.Pairwise (· < ·) ∧
    ∃ listed, l.namespaces = some listed ∧ ∀ ns, ns ∈ names ↔ ns ∈ listed
  /-- Events are logged under the label that the handler names. -/
  handler : l.handler = "log" ∧ x.handler.label = "event" ∨
    x.handler.label ≠ "" ∧ l.handler = "log:" ++ x.handler.label

theorem registers (complete : l.fault? = none) : l.Registers l.request.registration.listener := by
  obtain ⟨-, -, known⟩ := fault?_eq_none_iff.mp complete
  obtain ⟨label, named⟩ := Option.isSome_iff_exists.mp known
  refine ⟨⟨Names.pairwise_ofList _, fun _ => Request.mem_topics⟩,
    Registry.namespaceSet_eq_none_iff, ?_, ?_⟩
  · intro names set
    obtain ⟨listed, given, rfl⟩ := Registry.eq_of_namespaceSet set
    exact ⟨Names.pairwise_ofList _, listed, given, fun _ => Names.mem_ofList⟩
  · have same : l.request.registration.listener.handler.label = label := by
      simp [request, Request.registration, named]
    rw [same]
    exact labelOf?_eq_some_iff.mp named

end ListenerEntry

namespace Config

/-! ### One listener after another -/

variable {r : Registry LogHandler} {l : ListenerEntry} {c : Config}

theorem register_eq (complete : l.fault? = none) :
    register r l = (r.answer l.request).mapError .listener := by
  obtain ⟨-, -, known⟩ := ListenerEntry.fault?_eq_none_iff.mp complete
  obtain ⟨label, named⟩ := Option.isSome_iff_exists.mp known
  simp only [register, named, Registry.answer, ListenerEntry.request, Option.getD_some]
  cases r.register l.group l.topics l.namespaces ⟨label⟩ <;> rfl

/-- The first listener that is refused ends the registration; if there is none, all are added in their
order. -/
theorem foldlM_register {f : FailureTopics} {ls : List ListenerEntry} (reserves : r.reserved = some f)
    (complete : ∀ l ∈ ls, l.fault? = none) :
    ls.foldlM register r = match ls.findSome? (ListenerEntry.refusal? f) with
      | some e => .error (.listener e)
      | none => .ok { r with accepted := r.accepted ++ ls.map fun l => l.request.registration } := by
  induction ls generalizing r with
  | nil => simp; rfl
  | cons l ls ih =>
    rw [List.forall_mem_cons] at complete
    rw [List.foldlM_cons, register_eq complete.1, List.findSome?_cons]
    cases refusal : l.refusal? f with
    | some e =>
      rw [← ListenerEntry.refusal?_eq reserves] at refusal
      rw [show r.answer l.request = _ from Registry.answer_eq_error_iff.mpr refusal]
      rfl
    | none =>
      rw [← ListenerEntry.refusal?_eq reserves] at refusal
      rw [show r.answer l.request = _ from Registry.answer_eq_ok_iff.mpr ⟨refusal, rfl⟩]
      refine (ih (r := ⟨r.reserved, r.accepted ++ [l.request.registration]⟩) reserves complete.2).trans ?_
      simp

theorem registry_eq (complete : ∀ l ∈ c.listeners, l.fault? = none) :
    c.registry = match c.listeners.findSome? (ListenerEntry.refusal? c.failureTopics) with
      | some e => .error (.listener e)
      | none => .ok ⟨some c.failureTopics, c.listeners.map fun l => l.request.registration⟩ :=
  foldlM_register rfl complete

theorem complete_of_validate {env : Environment} (valid : (c.validate env).1 = .ok ()) :
    ∀ l ∈ c.listeners, l.fault? = none := by
  obtain ⟨-, -, -, listeners⟩ := fault?_eq_none.mp (validate_eq_ok_iff.mp valid)
  exact List.findSome?_eq_none_iff.mp listeners

section

variable (complete : ∀ l ∈ c.listeners, l.fault? = none)
include complete

theorem registry_eq_error_iff {e : ConfigError} : c.registry = .error e ↔
    ∃ before l after, c.listeners = before ++ l :: after ∧
      (∀ l' ∈ before, ¬ ("" ∈ l'.topics ∨ l'.UsesReserved c.failureTopics)) ∧
      ∃ refusal, l.Refused c.failureTopics refusal ∧ e = .listener refusal := by
  have course : c.registry = .error e ↔ ∃ refusal,
      c.listeners.findSome? (ListenerEntry.refusal? c.failureTopics) = some refusal ∧
        e = .listener refusal := by
    rw [registry_eq complete]
    cases c.listeners.findSome? _ <;> simp [eq_comm]
  simp only [course, List.findSome?_eq_some_iff]
  constructor
  · rintro ⟨refusal, ⟨before, l, after, split, refused, accepted⟩, rfl⟩
    rw [split, List.forall_mem_append, List.forall_mem_cons] at complete
    refine ⟨before, l, after, split, fun l' earlier => ?_, refusal, ?_, rfl⟩
    · exact (ListenerEntry.refusal?_eq_none_iff (complete.1 l' earlier)).mp (accepted l' earlier)
    · exact (ListenerEntry.refusal?_eq_some_iff complete.2.1).mp refused
  · rintro ⟨before, l, after, split, accepted, refusal, refused, rfl⟩
    rw [split, List.forall_mem_append, List.forall_mem_cons] at complete
    refine ⟨refusal, ⟨before, l, after, split, ?_, fun l' earlier => ?_⟩, rfl⟩
    · exact (ListenerEntry.refusal?_eq_some_iff complete.2.1).mpr refused
    · exact (ListenerEntry.refusal?_eq_none_iff (complete.1 l' earlier)).mpr (accepted l' earlier)

theorem registry_eq_ok_iff : c.registry = .ok r ↔
    (∀ l ∈ c.listeners, ¬ ("" ∈ l.topics ∨ l.UsesReserved c.failureTopics)) ∧
      r = ⟨some c.failureTopics, c.listeners.map fun l => l.request.registration⟩ := by
  have course : (∀ l ∈ c.listeners, ¬ ("" ∈ l.topics ∨ l.UsesReserved c.failureTopics)) ↔
      c.listeners.findSome? (ListenerEntry.refusal? c.failureTopics) = none := by
    rw [List.findSome?_eq_none_iff]
    exact forall₂_congr fun l listed => (ListenerEntry.refusal?_eq_none_iff (complete l listed)).symm
  rw [course, registry_eq complete]
  cases c.listeners.findSome? _ <;> simp [eq_comm]

/-- A registry of listeners that a configuration may have answers what the configuration says. -/
theorem holds_of_registry (built : c.registry = .ok r) : r.Holds (c.listeners.map ListenerEntry.request) := by
  obtain ⟨-, rfl⟩ := (registry_eq_ok_iff complete).mp built
  exact Registry.holds_of_accepted (by rw [List.map_map]; rfl)

theorem reservedCollision?_of_registry (built : c.registry = .ok r) :
    r.reservedCollision? c.failureTopics = none := by
  obtain ⟨accepted, rfl⟩ := (registry_eq_ok_iff complete).mp built
  refine Registry.reservedCollision?_eq_none_iff.mpr (List.forall_mem_map.mpr fun l listed => ?_)
  have refusal := (ListenerEntry.refusal?_eq_none_iff (complete l listed)).mpr (accepted l listed)
  exact Registry.spares_of_refusal? rfl refusal

end

/-- What a registry holds is what a valid configuration lists. There is no registry exactly if some listener
has an empty topic or uses a reserved name, and then the first such listener is named, for nothing else than
that. Otherwise each group has the listeners that are configured for it, in the order of the configuration
and as they are configured, and nothing in the registry is on the retry path of the application. -/
theorem registry_of_valid {env : Environment} {c : Config} (valid : (c.validate env).1 = .ok ()) :
    ((∃ e, c.registry = .error e) ↔
      ∃ l ∈ c.listeners, "" ∈ l.topics ∨ l.UsesReserved c.failureTopics) ∧
    (∀ e, c.registry = .error e ↔ ∃ before l after, c.listeners = before ++ l :: after ∧
      (∀ l' ∈ before, ¬ ("" ∈ l'.topics ∨ l'.UsesReserved c.failureTopics)) ∧
      ∃ refusal, l.Refused c.failureTopics refusal ∧ e = .listener refusal) ∧
    ∀ r, c.registry = .ok r →
      (∀ group, List.Forall₂ ListenerEntry.Registers (c.listeners.filter fun l => l.group = group)
        (r.listeners group)) ∧
      (∀ group, group ∈ r.groups ↔ ∃ l ∈ c.listeners, l.group = group) ∧
      r.reservedCollision? c.failureTopics = none ∧
      ∀ group ∈ r.groups, group ≠ c.failureTopics.retryGroup ∧ ∀ topic ∈ r.topicsFor group,
        topic ≠ c.failureTopics.retryTopic ∧ topic ≠ c.failureTopics.deadTopic := by
  have complete := complete_of_validate valid
  refine ⟨?_, fun e => registry_eq_error_iff complete, fun r built => ?_⟩
  · have built : (∃ r, c.registry = .ok r) ↔
        ∀ l ∈ c.listeners, ¬ ("" ∈ l.topics ∨ l.UsesReserved c.failureTopics) := by
      simp only [registry_eq_ok_iff complete, exists_and_left, exists_eq, and_true]
    have either : (∃ e, c.registry = .error e) ↔ ¬ ∃ r, c.registry = .ok r := by
      cases c.registry <;> simp
    simp only [either, built, not_forall, not_not, exists_prop]
  have holds := holds_of_registry complete built
  have free := reservedCollision?_of_registry complete built
  refine ⟨fun group => ?_, fun group => ?_, free, fun group registered => ?_⟩
  · rw [holds.listeners, List.filter_map, List.map_map, List.forall₂_map_right_iff]
    refine List.forall₂_same.mpr fun l listed => ListenerEntry.registers (complete l ?_)
    exact List.mem_of_mem_filter listed
  · rw [holds.groups.2]
    simp only [List.mem_map, exists_exists_and_eq_and]
    rfl
  · obtain ⟨other, unreserved⟩ := Registry.spares_of_mem_groups free registered
    refine ⟨other, fun topic taken => ?_⟩
    have := unreserved topic taken
    rwa [← Bool.not_eq_true, FailureTopics.isReservedTopic_iff, not_or] at this

/-- Listeners of two groups take turns, and the registry has those of each group in their order. A listener
of both topics of the retry path is refused for the one that comes first. -/
theorem sample_registry_of_valid :
    let orders : ListenerEntry := ⟨"billing", ["orders", "orders"], some [], "log"⟩
    let audit : ListenerEntry := ⟨"audit", ["refunds", "orders"], none, "log:who:what"⟩
    let refunds : ListenerEntry := ⟨"billing", ["refunds"], some ["eu"], "log:late"⟩
    let grave : ListenerEntry := ⟨"audit", ["shop_failure_topic", "shop_dead_topic"], none, "log"⟩
    let shop (listeners : List ListenerEntry) : Config := { standard "shop" with listeners }
    (∃ r, (shop [orders, audit, refunds]).registry = .ok r ∧
      List.Forall₂ ListenerEntry.Registers [orders, refunds] (r.listeners "billing")) ∧
    (shop [orders, grave, refunds]).registry = .error (.listener (.reservedName "shop_dead_topic")) := by
  intro orders audit refunds grave shop
  constructor
  · have valid : ((shop [orders, audit, refunds]).validate []).1 = .ok () :=
      validate_eq_ok_iff.mpr (by decide +kernel)
    obtain ⟨fails, -, contents⟩ := registry_of_valid valid
    cases built : (shop [orders, audit, refunds]).registry with
    | ok r => exact ⟨r, rfl, (contents r built).1 "billing"⟩
    | error e => exact absurd (fails.mp ⟨e, built⟩) (by decide +kernel)
  · have valid : ((shop [orders, grave, refunds]).validate []).1 = .ok () :=
      validate_eq_ok_iff.mpr (by decide +kernel)
    have refused : grave.Refused (.ofApp "shop") (.reservedName "shop_dead_topic") :=
      .reservedTopic (by decide +kernel) (by decide +kernel) (by decide +kernel) (.inr rfl)
        (by decide +kernel)
    refine ((registry_of_valid valid).2.1 _).mpr ⟨[orders], grave, [refunds], rfl, ?_, _, refused, rfl⟩
    decide +kernel

end Config

end EventPipeline
