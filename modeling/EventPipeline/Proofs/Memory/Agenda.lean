import Mathlib.Data.List.Nodup
import Mathlib.Data.List.Perm.Subperm
import EventPipeline.Proofs.Memory.Worker

/-! # What there is to read

A topic holds messages from every offset on. A consumer has before it the messages of its topics from
where it stands, and each fetch takes the first of them. So a worker fetches nothing but messages of
its own topics from where its group had got, and none of them twice: what it has fetched is a part of
its agenda.
-/

namespace EventPipeline

namespace Memory

open Worker

variable {σ : Type}

/-! ### The messages of a topic -/

/-- The records of a topic among arrivals. -/
def recordsOn (topic : String) (arrivals : List (String × Record)) : List Record :=
  (arrivals.filter fun arrival => arrival.1 == topic).map Prod.snd

@[simp] theorem recordsOn_append (topic : String) (first second : List (String × Record)) :
    recordsOn topic (first ++ second) = recordsOn topic first ++ recordsOn topic second := by
  simp [recordsOn]

theorem recordsOn_perm {arrivals arrivals' : List (String × Record)}
    (perm : arrivals.Perm arrivals') (topic : String) :
    (recordsOn topic arrivals).Perm (recordsOn topic arrivals') := (perm.filter _).map _

/-- The message that a record of a topic is fetched as. -/
def Record.message (topic : String) (offset : Nat) (r : Record) : Delivery :=
  ⟨topic, 0, offset, r.key.map octetsOf, r.payload⟩

namespace Broker

/-- The messages of a topic from an offset on. -/
def messages (b : Broker) (topic : String) (offset : Nat) : List Delivery :=
  (((b.records topic).drop offset).zipIdx offset).map fun (r, i) => r.message topic i

variable {b b' : Broker} {topic : String} {offset : Nat} {r : Record} {d : Delivery}

theorem messages_congr (same : b'.records topic = b.records topic) (offset : Nat) :
    b'.messages topic offset = b.messages topic offset := by
  rw [messages, messages, same]

theorem messages_of_holds (holds : b.Holds topic offset r) :
    b.messages topic offset = r.message topic offset :: b.messages topic (offset + 1) := by
  obtain ⟨inside, rfl⟩ := List.getElem?_eq_some_iff.mp holds
  rw [messages, List.drop_eq_getElem_cons inside, List.zipIdx_cons, List.map_cons, messages]

theorem messages_eq_nil_iff : b.messages topic offset = [] ↔ b.nextOffset topic ≤ offset := by
  simp [messages, nextOffset]

theorem messages_append (records : b'.records topic = b.records topic ++ [r])
    (inside : offset ≤ b.nextOffset topic) :
    b'.messages topic offset =
      b.messages topic offset ++ [r.message topic (b.nextOffset topic)] := by
  have all : offset + (b.nextOffset topic - offset) = b.nextOffset topic := by omega
  rw [messages, records, List.drop_append_of_le_length inside, List.zipIdx_append,
    List.map_append, List.length_drop]
  change _ ++ [r.message topic (offset + (b.nextOffset topic - offset))] = _
  rw [all]
  rfl

/-- A message of a topic from an offset on is a record that stands there or behind. -/
theorem mem_messages : d ∈ b.messages topic offset ↔
    ∃ i r, offset ≤ i ∧ b.Holds topic i r ∧ d = r.message topic i := by
  constructor
  · intro mem
    obtain ⟨⟨r, i⟩, placed, rfl⟩ := List.mem_map.mp mem
    rw [List.mk_mem_zipIdx_iff_le_and_getElem?_sub, List.getElem?_drop] at placed
    obtain ⟨behind, holds⟩ := placed
    rw [Nat.add_sub_cancel' behind] at holds
    exact ⟨i, r, behind, holds, rfl⟩
  · rintro ⟨i, r, behind, holds, rfl⟩
    refine List.mem_map.mpr ⟨(r, i), ?_, rfl⟩
    rw [List.mk_mem_zipIdx_iff_le_and_getElem?_sub, List.getElem?_drop,
      Nat.add_sub_cancel' behind]
    exact ⟨behind, holds⟩

theorem topic_of_mem_messages (mem : d ∈ b.messages topic offset) : d.topic = topic := by
  obtain ⟨i, r, -, -, rfl⟩ := mem_messages.mp mem
  rfl

theorem mem_messages_mono (grows : b.Grows b') {offset' : Nat} (earlier : offset' ≤ offset)
    (mem : d ∈ b.messages topic offset) : d ∈ b'.messages topic offset' := by
  obtain ⟨i, r, behind, holds, rfl⟩ := mem_messages.mp mem
  exact mem_messages.mpr ⟨i, r, Nat.le_trans earlier behind, holds.mono grows, rfl⟩

/-- What does not depend on offsets is the same for the messages as for the records. -/
theorem map_messages {α : Type} {f : Delivery → α} (g : Record → α)
    (same : ∀ i r, f (r.message topic i) = g r) (b : Broker) (offset : Nat) :
    (b.messages topic offset).map f = ((b.records topic).drop offset).map g := by
  rw [messages, List.map_map]
  have pointwise : f ∘ (fun (r, i) => r.message topic i) = g ∘ Prod.fst := by
    funext ⟨r, i⟩
    exact same i r
  rw [pointwise, ← List.map_map, List.zipIdx_map_fst]

theorem length_messages (b : Broker) (topic : String) (offset : Nat) :
    (b.messages topic offset).length = b.nextOffset topic - offset := by
  rw [messages, List.length_map, List.length_zipIdx, List.length_drop]
  rfl

end Broker

/-! ### What a consumer has before it -/

namespace Consumer

/-- The messages that a consumer has before it in some topics. -/
def ahead (c : Consumer) (b : Broker) (topics : List String) : List Delivery :=
  topics.flatMap fun topic => b.messages topic (c.position b topic)

theorem ahead_congr {b b' : Broker} {c c' : Consumer} {topics : List String}
    (records : ∀ topic ∈ topics, b'.records topic = b.records topic)
    (position : ∀ topic ∈ topics, c'.position b' topic = c.position b topic) :
    c'.ahead b' topics = c.ahead b topics := by
  apply List.flatMap_congr
  intro topic mem
  rw [position topic mem, Broker.messages_congr (records topic mem)]

theorem Looked.ahead_eq {b : Broker} {c c' : Consumer} (looked : Looked b c c')
    (topics : List String) : c'.ahead b topics = c.ahead b topics :=
  ahead_congr (fun _ _ => rfl) fun topic _ => looked.position_eq topic

/-- A look at a topic finds the record at the consumer's position, or goes on to the others. -/
theorem next_cons_cases (c : Consumer) (b : Broker) (topic : String) (topics : List String) :
    ∃ middle, Looked b c middle ∧
      ((∃ r, b.Holds topic (c.position b topic) r ∧
          c.next b (topic :: topics) = (some (r.message topic (c.position b topic)),
            { middle with positions := middle.positions.set topic (c.position b topic + 1) })) ∨
        b.nextOffset topic ≤ c.position b topic ∧
          c.next b (topic :: topics) = middle.next b topics) := by
  obtain ⟨looked, stands⟩ := c.look_spec b topic
  refine ⟨(c.look b topic).1, looked, ?_⟩
  cases found : (b.records topic)[c.position b topic]? with
  | some r =>
    refine .inl ⟨r, found, ?_⟩
    simp only [next, stands, found]
    rfl
  | none =>
    refine .inr ⟨List.getElem?_eq_none_iff.mp found, ?_⟩
    simp only [next, stands, found]

/-- A fetch leaves a consumer where it was in the topics that it did not ask. -/
theorem position_of_next {b : Broker} {c c' : Consumer} {d? : Option Delivery}
    {topics : List String} (next : c.next b topics = (d?, c')) {topic : String}
    (other : topic ∉ topics) : c'.position b topic = c.position b topic := by
  rcases c.next_cases b topics with ⟨c'', nothing, looked⟩ | ⟨d, middle, finds, looked, found⟩
  · rw [next] at nothing
    cases nothing
    exact looked.position_eq topic
  · rw [next] at found
    cases found
    have differ : topic ≠ d.topic := fun same => other (same ▸ finds.subscribed)
    exact (middle.position_set_of_ne b _ differ).trans (looked.position_eq topic)

/-- A fetch takes the first of the messages that lie before the consumer. -/
theorem ahead_of_next_some {b : Broker} {c c' : Consumer} {d : Delivery} {topics : List String}
    (distinct : topics.Nodup) (found : c.next b topics = (some d, c')) :
    c.ahead b topics = d :: c'.ahead b topics := by
  induction topics generalizing c with
  | nil => cases found
  | cons topic topics ih =>
    obtain ⟨new, distinct'⟩ := List.nodup_cons.mp distinct
    obtain ⟨middle, looked, ⟨r, holds, found'⟩ | ⟨beyond, onward⟩⟩ :=
      c.next_cons_cases b topic topics
    · rw [found'] at found
      cases found
      -- the topics that come later are not asked: there the consumer stays where it was
      have others : ahead { middle with
          positions := middle.positions.set topic (c.position b topic + 1) } b topics =
          c.ahead b topics := by
        refine ahead_congr (fun _ _ => rfl) ?_
        intro other mem
        have differ : other ≠ topic := fun same => new (same ▸ mem)
        exact (middle.position_set_of_ne b _ differ).trans (looked.position_eq other)
      rw [ahead, List.flatMap_cons, Broker.messages_of_holds holds, ahead, List.flatMap_cons,
        position_set_self, ← ahead, ← ahead, others, List.cons_append]
    · rw [onward] at found
      have here := (position_of_next found new).trans (looked.position_eq topic)
      have nothing := Broker.messages_eq_nil_iff.mpr beyond
      rw [ahead, List.flatMap_cons, nothing, ahead, List.flatMap_cons, here, nothing,
        List.nil_append, List.nil_append, ← ahead, ← ahead, ← looked.ahead_eq, ih distinct' found]

end Consumer

/-! ### What a worker has to read -/

/-- The messages of a worker's topics from where its group had got at the start. -/
def agenda (w : Worker (World σ)) (start b : Broker) : List Delivery :=
  (Names.ofList w.topics).flatMap fun topic => b.messages topic (start.reached w.group topic)

theorem agenda_congr {w : Worker (World σ)} {start b b' : Broker}
    (records : ∀ topic ∈ w.topics, b'.records topic = b.records topic) :
    agenda w start b' = agenda w start b := by
  apply List.flatMap_congr
  intro topic mem
  exact Broker.messages_congr (records topic (Names.mem_ofList.mp mem)) _

theorem mem_agenda {w : Worker (World σ)} {start b : Broker} {d : Delivery} :
    d ∈ agenda w start b ↔
      d.topic ∈ w.topics ∧ d ∈ b.messages d.topic (start.reached w.group d.topic) := by
  constructor
  · intro mem
    obtain ⟨topic, subscribed, held⟩ := List.mem_flatMap.mp mem
    obtain rfl := Broker.topic_of_mem_messages held
    exact ⟨Names.mem_ofList.mp subscribed, held⟩
  · rintro ⟨subscribed, held⟩
    exact List.mem_flatMap.mpr ⟨d.topic, Names.mem_ofList.mpr subscribed, held⟩

/-- The consumer is one for the worker's group and topics, and stands nowhere before these offsets. -/
structure Consumer.Serves (w : Worker (World σ)) (lower : String → Nat) (c : Consumer) : Prop where
  group : c.group = w.group
  topics : c.topics = Names.ofList w.topics
  behind : ∀ topic p, c.positions.get? topic = some p → lower topic ≤ p

namespace Consumer.Serves

variable {w : Worker (World σ)} {lower : String → Nat} {b : Broker} {c c' : Consumer}

theorem fresh (w : Worker (World σ)) (lower : String → Nat) :
    Consumer.Serves w lower ⟨w.group, Names.ofList w.topics, []⟩ :=
  ⟨rfl, rfl, fun _ _ => nofun⟩

theorem le_position (serves : c.Serves w lower) (bound : ∀ topic, lower topic ≤ b.reached w.group topic)
    (topic : String) : lower topic ≤ c.position b topic := by
  rw [position, serves.group]
  cases known : c.positions.get? topic with
  | none => exact bound topic
  | some p => exact serves.behind topic p known

theorem looked (serves : c.Serves w lower) (bound : ∀ topic, lower topic ≤ b.reached w.group topic)
    (looked : Looked b c c') : c'.Serves w lower := by
  refine ⟨looked.group.trans serves.group, looked.topics.trans serves.topics, ?_⟩
  intro topic p known
  rw [looked.placed topic p known]
  exact serves.le_position bound topic

theorem next (serves : c.Serves w lower) (bound : ∀ topic, lower topic ≤ b.reached w.group topic)
    {d? : Option Delivery} (next : c.next b c.topics = (d?, c')) : c'.Serves w lower := by
  rcases c.next_cases b c.topics with ⟨c'', nothing, looked⟩ | ⟨d, middle, -, looked, found⟩
  · rw [next] at nothing
    cases nothing
    exact serves.looked bound looked
  · rw [next] at found
    cases found
    obtain ⟨group, topics, behind⟩ := serves.looked bound looked
    refine ⟨group, topics, ?_⟩
    intro topic p known
    by_cases here : topic = d.topic
    · subst here
      rw [Table.get?_set_self] at known
      cases known
      exact Nat.le_succ_of_le (serves.le_position bound _)
    · rw [Table.get?_set_of_ne _ _ here] at known
      exact behind topic p known

end Consumer.Serves

section Life

variable {w : Worker (World σ)} {s s' : WorkerState Consumer} {world world' : World σ}
  {lower : String → Nat} {moves : List (Move (World σ) Consumer)}

theorem Works.serves (works : Works w s world s' world')
    (bound : ∀ topic, lower topic ≤ world.broker.reached w.group topic)
    (serves : ∀ c, s.phase.consumer? = some c → c.Serves w lower) :
    ∀ c, s'.phase.consumer? = some c → c.Serves w lower := by
  intro c' consumer'
  cases works with
  | opened _ opened =>
    rw [opened] at consumer'
    cases consumer'
    exact .fresh w lower
  | ended _ ended =>
    rw [ended] at consumer'
    cases consumer'
  | looked _ _ before after looked =>
    rw [after] at consumer'
    cases consumer'
    exact (serves _ before).looked bound looked
  | fetched waiting received found =>
    rw [received] at consumer'
    cases consumer'
    exact (serves _ (congrArg Phase.consumer? waiting)).next bound found
  | dispatched unfinished held =>
    obtain ⟨c, d, before⟩ := unfinished.held
    rw [Phase.consumer?_of_held? (held.trans before)] at consumer'
    cases consumer'
    exact serves _ (Phase.consumer?_of_held? before)
  | settled settling further =>
    rcases further with checking | ⟨exit, ended⟩
    · rw [checking] at consumer'
      cases consumer'
      exact serves _ (congrArg Phase.consumer? settling)
    · rw [ended] at consumer'
      cases consumer'

/-- A worker whose group was nowhere before these offsets has a consumer that is not either. -/
theorem serves_of_makes (run : w.Makes World.host .initial moves s)
    (bound : ∀ m ∈ moves, ∀ topic, lower topic ≤ m.found.broker.reached w.group topic) :
    ∀ c, s.phase.consumer? = some c → c.Serves w lower := by
  induction run with
  | start => exact fun _ => nofun
  | step run made ih =>
    apply (works_of_does (does_step made)).serves
    · exact bound _ (List.mem_append_right _ (List.mem_singleton_self _))
    · exact ih fun m mem => bound m (List.mem_append_left _ mem)

theorem Works.mem_messages (works : Works w s world s' world')
    (bound : ∀ topic, lower topic ≤ world.broker.reached w.group topic)
    (serves : ∀ c, s.phase.consumer? = some c → c.Serves w lower) {d : Delivery}
    (fetches : s'.phase.fetched? = some d) :
    d.topic ∈ w.topics ∧ d ∈ world.broker.messages d.topic (lower d.topic) := by
  obtain ⟨c, c', waiting, found⟩ := works.fetched_cases fetches
  have serves := serves c (congrArg Phase.consumer? waiting)
  have distinct : c.topics.Nodup := serves.topics ▸ Names.nodup_ofList _
  have first : d ∈ c.ahead world.broker c.topics := by
    rw [c.ahead_of_next_some distinct found]
    exact List.mem_cons_self ..
  obtain ⟨topic, subscribed, held⟩ := List.mem_flatMap.mp first
  obtain rfl := Broker.topic_of_mem_messages held
  rw [serves.topics] at subscribed
  exact ⟨Names.mem_ofList.mp subscribed,
    Broker.mem_messages_mono (.refl _) (serves.le_position bound _) held⟩

/-- If no record goes away and the group does not go back, all that a worker fetches is on its agenda,
and it fetches nothing twice. -/
theorem fetched_subperm_agenda (run : w.Makes World.host .initial moves s) {start b : Broker}
    (reached : ∀ m ∈ moves, ∀ topic,
      start.reached w.group topic ≤ m.found.broker.reached w.group topic)
    (grows : ∀ m ∈ moves, m.found.broker.Grows b) : (fetched moves).Subperm (agenda w start b) := by
  -- as no message is fetched twice, it is enough that each of them is on the agenda
  have distinct : (fetched moves).Nodup := List.Nodup.of_map _ (fetched_nodup run)
  apply List.subperm_of_subset distinct
  intro d fetches
  obtain ⟨m, made, now⟩ := List.mem_filterMap.mp fetches
  obtain ⟨earlier, later, rfl⟩ := List.append_of_mem made
  obtain ⟨before, step⟩ := run.before rfl
  have serves := serves_of_makes before fun m mem => reached m (List.mem_append_left _ mem)
  obtain ⟨subscribed, held⟩ :=
    (works_of_does (does_step step)).mem_messages (reached m made) serves now
  exact mem_agenda.mpr ⟨subscribed, Broker.mem_messages_mono (grows m made) (Nat.le_refl _) held⟩

end Life

end Memory

end EventPipeline
