import Mathlib.Data.List.Dedup
import EventPipeline.Proofs.Registry.Reserved

/-! # What a registry holds

A registry that began without registrations holds the requests that it accepted and nothing else: whatever
is asked of it is answered from these, in their order (`Registry.Holds`). A request is refused for the first
thing that is wrong with it (`Request.Refused`), which depends on the request and on the reserved names
alone. So the requests determine the answers and what the registry says after each of them
(`Registry.contents_of_requests`).
-/

namespace EventPipeline

variable {η : Type}

/-- The first hit in an increasing list is the least one. -/
theorem Names.find?_eq_some_iff {names : List String} (increasing : names.Pairwise (· < ·))
    {p : String → Bool} {name : String} :
    names.find? p = some name ↔
      name ∈ names ∧ p name = true ∧ ∀ other ∈ names, p other = true → name ≤ other := by
  induction names with
  | nil => simp
  | cons n rest ih =>
    obtain ⟨least, increasing⟩ := List.pairwise_cons.mp increasing
    cases hit : p n with
    | true =>
      rw [List.find?_cons_of_pos hit]
      constructor
      · rintro ⟨⟩
        refine ⟨List.mem_cons_self .., hit, fun other listed _ => ?_⟩
        rcases List.mem_cons.mp listed with rfl | later
        · exact String.le_refl other
        · exact String.not_lt.mp (String.lt_asymm (least other later))
      · rintro ⟨listed, -, first⟩
        rcases List.mem_cons.mp listed with rfl | later
        · rfl
        · exact absurd (least name later) (String.not_lt.mpr (first n (List.mem_cons_self ..) hit))
    | false =>
      rw [List.find?_cons_of_neg (by simp [hit]), ih increasing]
      simp only [List.mem_cons, forall_eq_or_imp, hit]
      grind

/-- The group collides before the topics, and these in increasing order. -/
theorem FailureTopics.collision?_eq_some_iff {f : FailureTopics} {group name : String}
    {topics : List String} :
    f.collision? group (Names.ofList topics) = some name ↔
      (group = f.retryGroup ∧ name = group) ∨
      (group ≠ f.retryGroup ∧ name ∈ topics ∧ f.isReservedTopic name = true ∧
        ∀ other ∈ topics, f.isReservedTopic other = true → name ≤ other) := by
  unfold collision?
  split
  · next retry => simp only [retry, Option.some_inj, eq_comm, true_and, ne_eq, not_true, false_and, or_false]
  · next other =>
    simp only [Names.find?_eq_some_iff (Names.pairwise_ofList _), Names.mem_ofList, other, false_and,
      false_or, ne_eq, not_false_iff, true_and]

/-! ### Refusals -/

namespace Request

variable {q : Request η} {reserved : Option FailureTopics}

/-- A request with a group and topics, all of them named. -/
def Proper (q : Request η) : Prop := q.group ≠ "" ∧ q.topics ≠ [] ∧ "" ∉ q.topics

/-- Whether a request uses a name that is reserved. -/
def UsesReserved (reserved : Option FailureTopics) (q : Request η) : Prop :=
  ∃ f, reserved = some f ∧ (q.group = f.retryGroup ∨ f.retryTopic ∈ q.topics ∨ f.deadTopic ∈ q.topics)

/-- What is said of a request that is refused: the first thing that is wrong with it. Of the reserved names,
the group comes before the topics, and these come in increasing order. -/
inductive Refused (reserved : Option FailureTopics) (q : Request η) : RegistryError → Prop where
  | emptyGroup (unnamed : q.group = "") : Refused reserved q .emptyGroup
  | noTopics (named : q.group ≠ "") (nothing : q.topics = []) : Refused reserved q (.noTopics q.group)
  | emptyTopic (named : q.group ≠ "") (unnamed : "" ∈ q.topics) : Refused reserved q (.emptyTopic q.group)
  | reservedGroup {f : FailureTopics} (proper : q.Proper) (reserves : reserved = some f)
    (retry : q.group = f.retryGroup) : Refused reserved q (.reservedName q.group)
  | reservedTopic {f : FailureTopics} {topic : String} (proper : q.Proper) (reserves : reserved = some f)
    (other : q.group ≠ f.retryGroup) (listed : topic ∈ q.topics) (used : f.isReservedTopic topic = true)
    (first : ∀ other ∈ q.topics, f.isReservedTopic other = true → topic ≤ other) :
    Refused reserved q (.reservedName topic)

/-- Whether a request asks for events of a topic and a namespace in a group. No list of namespaces and an
empty one both ask for all events. -/
def Wants (q : Request η) (group topic : String) (ns : Option String) : Prop :=
  q.group = group ∧ topic ∈ q.topics ∧
    (q.namespaces = none ∨ q.namespaces = some [] ∨ ∃ name ∈ q.namespaces.getD [], ns = some name)

instance (q : Request η) (group topic : String) (ns : Option String) : Decidable (q.Wants group topic ns) :=
  inferInstanceAs (Decidable (_ ∧ _ ∧ (_ ∨ _ ∨ _)))

theorem takes_iff {group topic : String} {ns : Option String} :
    q.group = group ∧ q.registration.listener.takes topic ns = true ↔ q.Wants group topic ns := by
  have nonempty (name : String) (rest : List String) : Names.ofList (name :: rest) ≠ [] := by
    intro empty
    have listed : name ∈ Names.ofList (name :: rest) := Names.mem_ofList.mpr (List.mem_cons_self ..)
    rw [empty] at listed
    cases listed
  obtain ⟨group', topics, namespaces, handler⟩ := q
  rw [Listener.takes_iff, Wants, mem_topics]
  refine and_congr_right fun _ => and_congr_right fun _ => ?_
  match namespaces with
  | none => simp [registration, Registry.namespaceSet]
  | some [] => simp [registration, Registry.namespaceSet, Names.ofList]
  | some (name :: rest) =>
    have set : Registry.namespaceSet (some (name :: rest)) = some (Names.ofList (name :: rest)) := by
      unfold Registry.namespaceSet
      split
      · next empty => exact absurd (Option.some.inj empty) (nonempty name rest)
      · rfl
    simp [registration, set]

end Request

namespace Registry

variable {r : Registry η} {q : Request η} {e : RegistryError}

theorem refusal?_eq_some_iff : r.refusal? q.group q.topics = some e ↔ q.Refused r.reserved e := by
  unfold refusal?
  constructor
  · intro refused
    split at refused
    · next unnamed =>
      cases refused
      exact .emptyGroup unnamed
    split at refused
    · next named nothing =>
      cases refused
      exact .noTopics named nothing
    split at refused
    · next named _ unnamed =>
      cases refused
      exact .emptyTopic named (List.contains_iff_mem.mp unnamed)
    · next named some unnamed =>
      have proper : q.Proper := ⟨named, some, fun listed => unnamed (List.contains_iff_mem.mpr listed)⟩
      obtain ⟨name, collides, rfl⟩ := Option.map_eq_some_iff.mp refused
      obtain ⟨f, reserves, collides⟩ := Option.bind_eq_some_iff.mp collides
      rcases FailureTopics.collision?_eq_some_iff.mp collides with ⟨retry, rfl⟩ | ⟨other, listed, used, first⟩
      · exact .reservedGroup proper reserves retry
      · exact .reservedTopic proper reserves other listed used first
  · have rest {name : String} {f : FailureTopics} (proper : q.Proper) (reserves : r.reserved = some f)
        (collides : f.collision? q.group (Names.ofList q.topics) = some name) :
        r.refusal? q.group q.topics = some (.reservedName name) := by
      obtain ⟨named, some, all⟩ := proper
      rw [refusal?, if_neg named, if_neg some, if_neg (mt List.contains_iff_mem.mp all), reserves,
        Option.bind_some, collides, Option.map_some]
    intro refused
    cases refused with
    | emptyGroup unnamed => rw [if_pos unnamed]
    | noTopics named nothing => rw [if_neg named, if_pos nothing]
    | emptyTopic named unnamed =>
      rw [if_neg named, if_neg (List.ne_nil_of_mem unnamed), if_pos (List.contains_iff_mem.mpr unnamed)]
    | reservedGroup proper reserves retry =>
      exact rest proper reserves (FailureTopics.collision?_eq_some_iff.mpr (.inl ⟨retry, rfl⟩))
    | reservedTopic proper reserves other listed used first =>
      exact rest proper reserves
        (FailureTopics.collision?_eq_some_iff.mpr (.inr ⟨other, listed, used, first⟩))

/-- A request is refused exactly if its group, its topics or one of its topics is empty or it uses a reserved
name. -/
theorem refusal?_ne_none_iff : r.refusal? q.group q.topics ≠ none ↔
    q.group = "" ∨ q.topics = [] ∨ "" ∈ q.topics ∨ q.UsesReserved r.reserved := by
  have spares (f : FailureTopics) : f.collision? q.group (Names.ofList q.topics) ≠ none ↔
      q.group = f.retryGroup ∨ f.retryTopic ∈ q.topics ∨ f.deadTopic ∈ q.topics := by
    rw [ne_eq, FailureTopics.collision?_eq_none_iff, FailureTopics.Spares]
    simp only [Names.mem_ofList, not_and_or, ne_eq, not_not, not_forall, Bool.not_eq_false,
      FailureTopics.isReservedTopic_iff, exists_prop, and_or_left, exists_or, exists_eq_right]
  unfold refusal? Request.UsesReserved
  split
  · next unnamed => simp [unnamed]
  split
  · next nothing => simp [nothing]
  split
  · next unnamed => simp [List.contains_iff_mem.mp unnamed]
  · next named some all =>
    have all : "" ∉ q.topics := mt List.contains_iff_mem.mpr all
    simp only [named, some, all, false_or, ← spares]
    cases r.reserved <;> simp

theorem answer_eq_error_iff : r.answer q = .error e ↔ r.refusal? q.group q.topics = some e := by
  unfold answer register
  cases r.refusal? q.group q.topics <;> simp

/-! ### What is asked of a registry -/

/-- The registry answers whatever it is asked as these requests, in their order, have it. -/
structure Holds (r : Registry η) (qs : List (Request η)) : Prop where
  groups : r.groups.Pairwise (· < ·) ∧ ∀ group, group ∈ r.groups ↔ ∃ q ∈ qs, q.group = group
  size : r.size = (qs.map Request.group).dedup.length
  listeners : ∀ group, r.listeners group =
    (qs.filter fun q => q.group = group).map fun q => q.registration.listener
  topicsFor : ∀ group, (r.topicsFor group).Pairwise (· < ·) ∧
    ∀ topic, topic ∈ r.topicsFor group ↔ ∃ q ∈ qs, q.group = group ∧ topic ∈ q.topics
  matching : ∀ group topic ns, (r.matching group topic ns).map Listener.handler =
    (qs.filter fun q => q.Wants group topic ns).map Request.handler

theorem holds_of_accepted {qs : List (Request η)} (accepted : r.accepted = qs.map Request.registration) :
    r.Holds qs := by
  have groups : r.groups.Pairwise (· < ·) ∧ ∀ group, group ∈ r.groups ↔ ∃ q ∈ qs, q.group = group := by
    refine ⟨Names.pairwise_ofList _, fun group => ?_⟩
    simp [mem_groups, accepted, Request.registration]
  have listeners (group : String) : r.listeners group =
      (qs.filter fun q => q.group = group).map fun q => q.registration.listener := by
    simp only [Registry.listeners, accepted, List.filter_map, List.map_map]
    rfl
  refine ⟨groups, ?_, listeners, ?_, ?_⟩
  · refine ((List.perm_ext_iff_of_nodup (Names.nodup_ofList _) (List.nodup_dedup _)).mpr ?_).length_eq
    intro group
    rw [List.mem_dedup, ← Registry.groups, groups.2, List.mem_map]
  · refine fun group => ⟨Names.pairwise_ofList _, fun topic => ?_⟩
    simp only [mem_topicsFor, accepted, List.mem_map, exists_exists_and_eq_and, Request.mem_topics]
    rfl
  · intro group topic ns
    rw [matching, listeners, List.filter_map, List.map_map, List.filter_filter]
    refine congrArg (List.map Request.handler) (List.filter_congr fun q _ => ?_)
    rw [Bool.eq_iff_iff]
    simp [← Request.takes_iff, and_comm]

/-! ### Requests and their answers -/

namespace History

variable {start : Registry η} {asked : List (Request η × Option RegistryError)}

/-- A request is answered as it would have been at the start. -/
theorem answer_eq (history : History start asked r) :
    ∀ answered ∈ asked, answered.2 = start.refusal? answered.1.group answered.1.topics := by
  induction history with
  | start => exact fun _ listed => absurd listed List.not_mem_nil
  | accepted earlier answers ih =>
    rw [List.forall_mem_append, List.forall_mem_singleton]
    refine ⟨ih, ?_⟩
    rw [← (answer_eq_ok_iff.mp answers).1, refusal?, earlier.reserved_eq, ← refusal?]
  | refused earlier answers ih =>
    rw [List.forall_mem_append, List.forall_mem_singleton]
    refine ⟨ih, ?_⟩
    rw [← answer_eq_error_iff.mp answers, refusal?, earlier.reserved_eq, ← refusal?]

theorem asked_eq (history : History start asked r) :
    asked = (asked.map Prod.fst).map fun q => (q, start.refusal? q.group q.topics) := by
  rw [List.map_map]
  refine (List.map_id asked).symm.trans (List.map_congr_left fun answered listed => ?_)
  exact Prod.ext rfl (history.answer_eq answered listed)

/-- The same requests are given the same answers and lead to the same registry. -/
theorem unique {r' : Registry η} {asked' : List (Request η × Option RegistryError)}
    (history : History start asked r) (history' : History start asked' r')
    (same : asked'.map Prod.fst = asked.map Prod.fst) : asked' = asked ∧ r' = r := by
  have answers : asked' = asked := by rw [history.asked_eq, history'.asked_eq, same]
  have reserved := history'.reserved_eq.trans history.reserved_eq.symm
  have accepted := history'.accepted_eq
  rw [answers, ← history.accepted_eq] at accepted
  cases r
  cases r'
  cases reserved
  cases accepted
  exact ⟨answers, rfl⟩

/-- Each of the requests was made to some registry. -/
theorem exists_before {before after : List (Request η × Option RegistryError)}
    (history : History start (before ++ after) r) : ∃ r₁, History start before r₁ := by
  obtain ⟨asked, r₁, history₁, same⟩ := exists_of_requests start (before.map Prod.fst)
  have answers : asked = before := by
    rw [history₁.asked_eq, same, List.map_map]
    refine (List.map_congr_left fun answered listed => ?_).trans (List.map_id before)
    exact Prod.ext rfl (history.answer_eq answered (List.mem_append_left _ listed)).symm
  exact ⟨r₁, answers ▸ history₁⟩

/-- A request that is refused changes nothing. -/
theorem eq_of_refused {r' : Registry η} (history : History start asked r)
    (refused : History start (asked ++ [(q, some e)]) r') : r' = r := by
  have answer := refused.answer_eq _ (List.mem_append_right _ (List.mem_singleton_self _))
  have answers : r.answer q = .error e := by
    rw [answer_eq_error_iff, refusal?, history.reserved_eq, ← refusal?]
    exact answer.symm
  exact ((history.refused answers).unique refused rfl).2

end History

/-- The registry is what it accepted. Requests made one after another of a registry that has no registrations,
whether or not it reserves names, have one course. Each of them is refused exactly if its group, its topics
or one of its topics is empty or it uses a reserved name, for the first of these reasons; if it is refused,
the registry is the same after it as before. After any of them, what the registry says of groups, topics and
listeners is what the accepted requests before say, in their order. -/
theorem contents_of_requests (reserved : Option FailureTopics) (requests : List (Request η)) :
    ∃ asked r, History ⟨reserved, []⟩ asked r ∧ asked.map Prod.fst = requests ∧ r.Holds (granted asked) ∧
      (∀ asked' r', History ⟨reserved, []⟩ asked' r' → asked'.map Prod.fst = requests →
        asked' = asked ∧ r' = r) ∧
      ∀ before q answer after, asked = before ++ (q, answer) :: after →
        (answer ≠ none ↔ q.group = "" ∨ q.topics = [] ∨ "" ∈ q.topics ∨ q.UsesReserved reserved) ∧
        (∀ e, answer = some e ↔ q.Refused reserved e) ∧
        ∃ r₁ r₂, History ⟨reserved, []⟩ before r₁ ∧ History ⟨reserved, []⟩ (before ++ [(q, answer)]) r₂ ∧
          r₁.Holds (granted before) ∧ (answer ≠ none → r₂ = r₁) := by
  have holds {asked : List (Request η × Option RegistryError)} {r : Registry η}
      (history : History ⟨reserved, []⟩ asked r) : r.Holds (granted asked) :=
    holds_of_accepted history.accepted_eq
  obtain ⟨asked, r, history, same⟩ := History.exists_of_requests ⟨reserved, []⟩ requests
  refine ⟨asked, r, history, same, holds history,
    fun asked' r' history' same' => history.unique history' (same'.trans same.symm), ?_⟩
  rintro before q answer after rfl
  have answered : answer = (⟨reserved, []⟩ : Registry η).refusal? q.group q.topics :=
    history.answer_eq _ (List.mem_append_right _ (List.mem_cons_self ..))
  refine ⟨answered ▸ refusal?_ne_none_iff, fun e => answered ▸ refusal?_eq_some_iff, ?_⟩
  obtain ⟨r₁, history₁⟩ := history.exists_before
  rw [List.append_cons] at history
  obtain ⟨r₂, history₂⟩ := history.exists_before
  refine ⟨r₁, r₂, history₁, history₂, holds history₁, fun refused => ?_⟩
  obtain ⟨e, rfl⟩ := Option.ne_none_iff_exists'.mp refused
  exact history₁.eq_of_refused history₂

/-- The second request is refused for a reserved topic, and events are matched with the first listener. -/
theorem sample_contents_of_requests : ∃ r,
    History (reserving (.ofApp "shop")) [(Sample.orderRequest, none),
      (Sample.graveRequest, some (.reservedName "shop_dead_topic"))] r ∧
    (r.matching "billing" "orders" (some "eu")).map Listener.handler = [Sample.orderRequest.handler] ∧
    r.matching "audit" "orders" none = [] := by
  obtain ⟨asked, r, history, same, holds, -⟩ :=
    contents_of_requests (some (.ofApp "shop")) [Sample.orderRequest, Sample.graveRequest]
  have answered := history.asked_eq
  rw [same] at answered
  subst answered
  refine ⟨r, history, holds.matching "billing" "orders" (some "eu"), ?_⟩
  exact List.map_eq_nil_iff.mp (holds.matching "audit" "orders" none)

end Registry

end EventPipeline
