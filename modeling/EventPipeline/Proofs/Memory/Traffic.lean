import EventPipeline.Proofs.Memory.Look

/-! # What consumers of one broker are given

Any number of consumers read from a broker, while records are added, offsets are committed and failures are
arranged in between; `Site.Runs` says what may happen. Each topic is served to a consumer from where its
group had got when the consumer first looked there, record by record (`Course`), whatever the others do
meanwhile. `Site.Runs.serves_in_order` puts this together with what each single operation does to the logs
(`Step.Regular`).
-/

namespace EventPipeline.Memory

/-! ### Operations -/

/-- Something that is done at a broker, with the answer that it gets. A poll that waits is a poll for each
time that it looks. -/
inductive Operation where
  | append (topic : String) (r : Record) (offset : Nat)
  | produce (record : Outgoing) (answer : Except BrokerError Unit)
  /-- A consumer is opened; it is known by its number from then on. -/
  | connect (sub : Subscription) (answer : Except BrokerError Nat)
  | poll (id : Nat) (answer : Except BrokerError (Option Delivery))
  | commit (id : Nat) (d : Delivery)
  | close (id : Nat)
  | refuse (topic : String)
  | reject (group : String)
  | inject (group : String) (e : BrokerError)

/-- A broker and the consumers that were opened, in this order. -/
structure Site where
  broker : Broker
  consumers : List Consumer

/-- What an operation does. -/
inductive Site.Does : Site → Operation → Site → Prop where
  | append (b : Broker) (cs : List Consumer) (topic : String) (r : Record) :
    Does ⟨b, cs⟩ (.append topic r (b.nextOffset topic)) ⟨b.append topic r, cs⟩
  | produce {b b' : Broker} {cs : List Consumer} {record : Outgoing} {answer : Except BrokerError Unit}
    {log : List LogEntry} (produced : Broker.produce record b = (answer, b', log)) :
    Does ⟨b, cs⟩ (.produce record answer) ⟨b', cs⟩
  | connect {b b' : Broker} {cs : List Consumer} {sub : Subscription} {c : Consumer} {log : List LogEntry}
    (connected : Consumer.connect sub b = (.ok c, b', log)) :
    Does ⟨b, cs⟩ (.connect sub (.ok cs.length)) ⟨b', cs ++ [c]⟩
  | rejected {b b' : Broker} {cs : List Consumer} {sub : Subscription} {e : BrokerError}
    {log : List LogEntry} (connected : Consumer.connect sub b = (.error e, b', log)) :
    Does ⟨b, cs⟩ (.connect sub (.error e)) ⟨b', cs⟩
  | poll {b b' : Broker} {cs : List Consumer} {id : Nat} {c c' : Consumer}
    {answer : Except BrokerError (Option Delivery)} {log : List LogEntry} (opened : cs[id]? = some c)
    (polled : c.poll b = ((answer, c'), b', log)) : Does ⟨b, cs⟩ (.poll id answer) ⟨b', cs.set id c'⟩
  | commit {b b' : Broker} {cs : List Consumer} {id : Nat} {c c' : Consumer} {d : Delivery}
    {answer : Except BrokerError Unit} {log : List LogEntry} (opened : cs[id]? = some c)
    (committed : c.commit d b = ((answer, c'), b', log)) : Does ⟨b, cs⟩ (.commit id d) ⟨b', cs.set id c'⟩
  | close {b b' : Broker} {cs : List Consumer} {id : Nat} {c : Consumer} {log : List LogEntry}
    (opened : cs[id]? = some c) (closed : c.close b = ((), b', log)) : Does ⟨b, cs⟩ (.close id) ⟨b', cs⟩
  | refuse (b : Broker) (cs : List Consumer) (topic : String) :
    Does ⟨b, cs⟩ (.refuse topic) ⟨b.refuse topic, cs⟩
  | reject (b : Broker) (cs : List Consumer) (group : String) :
    Does ⟨b, cs⟩ (.reject group) ⟨b.reject group, cs⟩
  | inject (b : Broker) (cs : List Consumer) (group : String) (e : BrokerError) :
    Does ⟨b, cs⟩ (.inject group e) ⟨b.inject group e, cs⟩

namespace Site.Does

variable {s s' : Site} {o : Operation} {id : Nat} {c : Consumer}

/-- Records are added at the end of a log, by an operation that says so, and nowhere else. -/
theorem arrivals_cases (does : s.Does o s') :
    (s'.broker.arrivals = s.broker.arrivals ∧ (∀ topic r offset, o ≠ .append topic r offset) ∧
      ∀ record, o ≠ .produce record (.ok ())) ∨
    ∃ topic r, s'.broker = s.broker.append topic r ∧
      (o = .append topic r (s.broker.nextOffset topic) ∨ ∃ record, o = .produce record (.ok ()) ∧
        topic = record.topic ∧ r = ⟨record.key, some record.payload⟩) := by
  cases does with
  | append => exact .inr ⟨_, _, rfl, .inl rfl⟩
  | produce produced =>
    unfold Broker.produce at produced
    split at produced <;> cases produced
    · exact .inl ⟨rfl, nofun, nofun⟩
    · exact .inr ⟨_, _, rfl, .inr ⟨_, rfl, rfl, rfl⟩⟩
  | connect connected | rejected connected =>
    unfold Consumer.connect at connected
    split at connected <;> cases connected
    exact .inl ⟨rfl, nofun, nofun⟩
  | poll _ polled => exact .inl ⟨(Consumer.poll_cases polled).1, nofun, nofun⟩
  | commit _ committed =>
    cases committed
    exact .inl ⟨rfl, nofun, nofun⟩
  | close _ closed =>
    cases closed
    exact .inl ⟨rfl, nofun, nofun⟩
  | refuse | reject | inject => exact .inl ⟨rfl, nofun, nofun⟩

theorem grows (does : s.Does o s') : s.broker.Grows s'.broker := by
  rcases does.arrivals_cases with ⟨same, -⟩ | ⟨topic, r, same, -⟩
  · exact Broker.grows_of_arrivals_eq same
  · exact same ▸ Broker.grows_append ..

/-- A consumer stays as it is unless it is polled and answers no error. -/
theorem consumer_cases (does : s.Does o s') (opened : s.consumers[id]? = some c) :
    (s'.consumers[id]? = some c ∧ ∀ d?, o ≠ .poll id (.ok d?)) ∨
    ∃ d? c', o = .poll id (.ok d?) ∧ c.next s.broker c.topics = (d?, c') ∧
      s'.consumers[id]? = some c' ∧ s'.broker.arrivals = s.broker.arrivals := by
  cases does with
  | poll opened' polled =>
    rename_i b b' cs id' c₁ c₂ answer log
    obtain ⟨arrivals, -, cases⟩ := Consumer.poll_cases polled
    by_cases same : id' = id
    · subst same
      obtain rfl := Option.some.inj (opened.symm.trans opened')
      have inside := (List.getElem?_eq_some_iff.mp opened).1
      rcases cases with ⟨e, rfl, rfl⟩ | ⟨d?, rfl, next⟩
      · exact .inl ⟨List.getElem?_set_self inside, nofun⟩
      · exact .inr ⟨d?, c₂, rfl, next, List.getElem?_set_self inside, arrivals⟩
    · refine .inl ⟨(List.getElem?_set_ne same).trans opened, ?_⟩
      rintro d? ⟨⟩
      exact same rfl
  | commit opened' committed =>
    rename_i id' _ _ _ _ _
    cases committed
    refine .inl ⟨?_, nofun⟩
    by_cases same : id' = id
    · subst same
      have inside := (List.getElem?_eq_some_iff.mp opened).1
      exact (List.getElem?_set_self inside).trans (opened'.symm.trans opened)
    · exact (List.getElem?_set_ne same).trans opened
  | connect =>
    have inside := (List.getElem?_eq_some_iff.mp opened).1
    exact .inl ⟨(List.getElem?_append_left inside).trans opened, nofun⟩
  | append | produce | rejected | close | refuse | reject | inject => exact .inl ⟨opened, nofun⟩

theorem length_le (does : s.Does o s') : s.consumers.length ≤ s'.consumers.length := by
  cases does <;> simp

/-- All consumers read their topics in increasing order. -/
theorem increasing (does : s.Does o s') (increasing : ∀ c ∈ s.consumers, c.topics.Pairwise (· < ·)) :
    ∀ c ∈ s'.consumers, c.topics.Pairwise (· < ·) := by
  have set {cs : List Consumer} {id : Nat} {c c' : Consumer} (opened : cs[id]? = some c)
      (same : c'.topics = c.topics) (increasing : ∀ c ∈ cs, c.topics.Pairwise (· < ·)) :
      ∀ c ∈ cs.set id c', c.topics.Pairwise (· < ·) := by
    intro c'' listed
    rcases List.mem_or_eq_of_mem_set listed with earlier | rfl
    · exact increasing c'' earlier
    · exact same ▸ increasing c (List.mem_of_getElem? opened)
  cases does with
  | connect connected =>
    unfold Consumer.connect at connected
    split at connected <;> cases connected
    rw [List.forall_mem_append, List.forall_mem_singleton]
    exact ⟨increasing, Names.pairwise_ofList _⟩
  | poll opened polled =>
    obtain ⟨-, -, ⟨e, -, rfl⟩ | ⟨d?, -, next⟩⟩ := Consumer.poll_cases polled
    · exact set opened rfl increasing
    · exact set opened (Consumer.same_of_next next).2 increasing
  | commit opened committed =>
    cases committed
    exact set opened rfl increasing
  | append | produce | rejected | close | refuse | reject | inject => exact increasing

end Site.Does

/-- An operation between the sites before and after it. -/
structure Step where
  before : Site
  operation : Operation
  after : Site

/-- Operations were done one after another, beginning at a broker without consumers. -/
inductive Site.Runs (start : Broker) : List Step → Site → Prop where
  | start : Runs start [] ⟨start, []⟩
  | step {steps : List Step} {s s' : Site} {o : Operation} (earlier : Runs start steps s)
    (does : s.Does o s') : Runs start (steps ++ [⟨s, o, s'⟩]) s'

/-! ### What each operation keeps -/

/-- A step leaves the logs in order, and a poll takes the first record that its consumer has not read. -/
structure Step.Regular (step : Step) : Prop where
  grows : ∀ topic, step.before.broker.records topic <+: step.after.broker.records topic
  /-- Only records that are appended or published come into a log. -/
  keeps : (∀ topic r offset, step.operation ≠ .append topic r offset) →
    (∀ record, step.operation ≠ .produce record (.ok ())) →
    ∀ topic, step.after.broker.records topic = step.before.broker.records topic
  appends : ∀ topic r offset, step.operation = .append topic r offset →
    offset = (step.before.broker.records topic).length ∧
    step.after.broker.records topic = step.before.broker.records topic ++ [r] ∧
    ∀ other, other ≠ topic → step.after.broker.records other = step.before.broker.records other
  produces : ∀ record, step.operation = .produce record (.ok ()) →
    step.after.broker.records record.topic =
      step.before.broker.records record.topic ++ [⟨record.key, some record.payload⟩] ∧
    ∀ other, other ≠ record.topic → step.after.broker.records other = step.before.broker.records other
  refuses : ∀ record e, step.operation = .produce record (.error e) →
    ∀ topic, step.after.broker.records topic = step.before.broker.records topic
  /-- A poll that answers an error reads nothing. -/
  fails : ∀ id e, step.operation = .poll id (.error e) → step.after.consumers = step.before.consumers ∧
    ∀ topic, step.after.broker.records topic = step.before.broker.records topic
  /-- A poll that answers nothing leaves nothing to read. -/
  exhausts : ∀ id, step.operation = .poll id (.ok none) → ∃ c, step.after.consumers[id]? = some c ∧
    ∀ topic ∈ c.topics, ¬ c.HasUnread step.after.broker topic
  delivers : ∀ id d, step.operation = .poll id (.ok (some d)) → ∃ c, step.before.consumers[id]? = some c ∧
    d.topic ∈ c.topics ∧ c.HasUnread step.before.broker d.topic ∧
    ∀ topic ∈ c.topics, topic < d.topic → ¬ c.HasUnread step.before.broker topic

theorem Site.Does.regular {s s' : Site} {o : Operation} (does : s.Does o s')
    (increasing : ∀ c ∈ s.consumers, c.topics.Pairwise (· < ·)) : Step.Regular ⟨s, o, s'⟩ := by
  have unchanged (same : s'.broker.arrivals = s.broker.arrivals) (topic : String) :
      s'.broker.records topic = s.broker.records topic :=
    Broker.records_congr same topic
  constructor
  · exact fun topic => does.grows.records topic
  · intro noAppend noProduce
    rcases does.arrivals_cases with ⟨same, -⟩ | ⟨_, _, -, append | ⟨record, produce, -⟩⟩
    · exact unchanged same
    · exact absurd append (noAppend _ _ _)
    · exact absurd produce (noProduce record)
  · rintro topic r offset rfl
    cases does with
    | append b cs =>
      exact ⟨rfl, Broker.records_append_self b topic r, fun _ => Broker.records_append_of_ne b r⟩
  · rintro record rfl
    rcases does.arrivals_cases with ⟨-, -, noProduce⟩ | ⟨_, _, broker, other | ⟨_, same, rfl, rfl⟩⟩
    · exact absurd rfl (noProduce record)
    · cases other
    · cases same
      simp only [broker]
      exact ⟨Broker.records_append_self .., fun _ => Broker.records_append_of_ne _ _⟩
  · rintro record e rfl
    rcases does.arrivals_cases with ⟨same, -⟩ | ⟨_, _, -, other | ⟨_, other, -⟩⟩
    · exact unchanged same
    · cases other
    · cases other
  · rintro id e rfl
    cases does with
    | poll opened polled =>
      obtain ⟨arrivals, -, ⟨_, -, rfl⟩ | ⟨_, answered, -⟩⟩ := Consumer.poll_cases polled
      · obtain ⟨inside, rfl⟩ := List.getElem?_eq_some_iff.mp opened
        exact ⟨List.set_getElem_self inside, unchanged arrivals⟩
      · cases answered
  · rintro id rfl
    cases does with
    | poll opened polled =>
      obtain ⟨arrivals, offsets, ⟨_, answered, -⟩ | ⟨d?, answered, next⟩⟩ := Consumer.poll_cases polled
      · cases answered
      · cases answered
        have inside := (List.getElem?_eq_some_iff.mp opened).1
        refine ⟨_, List.getElem?_set_self inside, fun topic listed unread => ?_⟩
        rw [(Consumer.same_of_next next).2] at listed
        rw [Consumer.hasUnread_congr arrivals offsets] at unread
        exact Consumer.not_hasUnread_of_none (increasing _ (List.mem_of_getElem? opened)) next listed unread
  · rintro id d rfl
    cases does with
    | poll opened polled =>
      obtain ⟨-, -, ⟨_, answered, -⟩ | ⟨d?, answered, next⟩⟩ := Consumer.poll_cases polled
      · cases answered
      · cases answered
        obtain ⟨listed, r, holds, -⟩ := Consumer.message_of_next next
        refine ⟨_, opened, listed, holds.lt, fun topic listed' before => ?_⟩
        refine Consumer.not_hasUnread_of_next (increasing _ (List.mem_of_getElem? opened)) next listed' ?_
        rintro _ ⟨⟩
        exact before

/-! ### What a consumer is given -/

/-- The message that a consumer is given in a step. -/
def Step.delivery? (id : Nat) (step : Step) : Option Delivery :=
  match step.operation with
  | .poll i (.ok d?) => if i = id then d? else none
  | _ => none

/-- The messages of a topic that a consumer is given. -/
def deliveries (id : Nat) (topic : String) (steps : List Step) : List Delivery :=
  (steps.filterMap (Step.delivery? id)).filter fun d => d.topic = topic

/-- In this step a consumer looks at a topic. -/
def Step.LooksAt (step : Step) (id : Nat) (topic : String) : Prop :=
  ∃ c d?, step.before.consumers[id]? = some c ∧ step.operation = .poll id (.ok d?) ∧
    c.LooksAt step.before.broker topic

/-- This is the first of the steps in which a consumer looks at a topic. -/
def FirstLook (steps : List Step) (id : Nat) (topic : String) (first : Step) : Prop :=
  ∃ earlier later, steps = earlier ++ first :: later ∧ first.LooksAt id topic ∧
    ∀ step ∈ earlier, ¬ step.LooksAt id topic

/-- The messages are the records of a topic from an offset on, without gaps or repeats. -/
def Broker.Yields (b : Broker) (topic : String) (offset : Nat) (ds : List Delivery) : Prop :=
  ∀ i d, ds[i]? = some d → ∃ r, b.Holds topic (offset + i) r ∧ d = r.message topic (offset + i)

section Given

variable {b b' : Broker} {steps : List Step} {step first : Step} {id : Nat} {topic : String} {offset : Nat}
  {ds : List Delivery}

theorem deliveries_concat : deliveries id topic (steps ++ [step]) =
    deliveries id topic steps ++ (step.delivery? id).toList.filter fun d => d.topic = topic := by
  cases given : step.delivery? id <;> simp [deliveries, given]

theorem delivery?_eq_none (unpolled : ∀ d?, step.operation ≠ .poll id (.ok d?)) :
    step.delivery? id = none := by
  unfold Step.delivery?
  split
  · next i d? polled =>
    split
    · next same =>
      subst same
      exact absurd polled (unpolled d?)
    · rfl
  · rfl

theorem deliveries_concat_of_nothing (nothing : step.delivery? id = none) :
    deliveries id topic (steps ++ [step]) = deliveries id topic steps := by
  rw [deliveries_concat, nothing, Option.toList_none, List.filter_nil, List.append_nil]

theorem deliveries_eq_nil (unpolled : ∀ step ∈ steps, ∀ d?, step.operation ≠ .poll id (.ok d?)) :
    deliveries id topic steps = [] := by
  rw [deliveries, List.filterMap_eq_nil_iff.mpr, List.filter_nil]
  exact fun step done => delivery?_eq_none (unpolled step done)

theorem FirstLook.append (looks : FirstLook steps id topic first) (more : List Step) :
    FirstLook (steps ++ more) id topic first := by
  obtain ⟨earlier, later, rfl, looks, unseen⟩ := looks
  exact ⟨earlier, later ++ more, by simp, looks, unseen⟩

theorem Broker.yields_nil (b : Broker) (topic : String) (offset : Nat) : b.Yields topic offset [] := by
  intro i d given
  rw [List.getElem?_nil] at given
  cases given

theorem Broker.Yields.mono (yields : b.Yields topic offset ds) (grows : b.Grows b') :
    b'.Yields topic offset ds := by
  intro i d given
  obtain ⟨r, holds, same⟩ := yields i d given
  exact ⟨r, holds.mono grows, same⟩

theorem Broker.Yields.concat {r : Record} (yields : b.Yields topic offset ds)
    (holds : b.Holds topic (offset + ds.length) r) :
    b.Yields topic offset (ds ++ [r.message topic (offset + ds.length)]) := by
  intro i d given
  rcases Nat.lt_or_ge i ds.length with inside | beyond
  · rw [List.getElem?_append_left inside] at given
    exact yields i d given
  · rw [List.getElem?_append_right beyond, List.getElem?_singleton] at given
    split at given
    · next last =>
      obtain rfl : i = ds.length := by omega
      cases given
      exact ⟨r, holds, rfl⟩
    · cases given

/-- How far a consumer has got in a topic: it has not looked there, or it was given the records from where
its group had got at its first look up to where it stands. -/
inductive Course (steps : List Step) (b : Broker) (id : Nat) (c : Consumer) (topic : String) : Prop where
  | unseen (unknown : c.positions.get? topic = none) (never : ∀ step ∈ steps, ¬ step.LooksAt id topic)
    (nothing : deliveries id topic steps = [])
  | seen {first : Step} (looks : FirstLook steps id topic first)
    (placed : c.positions.get? topic = some
      (first.before.broker.reached c.group topic + (deliveries id topic steps).length))
    (yields : b.Yields topic (first.before.broker.reached c.group topic) (deliveries id topic steps))

end Given

/-- A consumer reads as its subscription says. -/
structure Reading (steps : List Step) (s : Site) (id : Nat) (sub : Subscription) (c : Consumer) : Prop where
  opened : s.consumers[id]? = some c
  group : c.group = sub.group
  topics : c.topics = Names.ofList sub.topics
  course : ∀ topic, Course steps s.broker id c topic
  foreign : ∀ topic ∉ sub.topics, deliveries id topic steps = []
  throughout : ∀ step ∈ steps, ∀ c',
    step.before.consumers[id]? = some c' ∨ step.after.consumers[id]? = some c' →
      c'.group = sub.group ∧ c'.topics = Names.ofList sub.topics

namespace Course

variable {steps : List Step} {s s' : Site} {o : Operation} {id : Nat} {c c' : Consumer} {topic : String}

/-- What others do leaves a consumer where it is. -/
theorem others (course : Course steps s.broker id c topic) (grows : s.broker.Grows s'.broker)
    (unpolled : ∀ d?, o ≠ .poll id (.ok d?)) :
    Course (steps ++ [⟨s, o, s'⟩]) s'.broker id c topic := by
  have same : deliveries id topic (steps ++ [⟨s, o, s'⟩]) = deliveries id topic steps :=
    deliveries_concat_of_nothing (delivery?_eq_none unpolled)
  cases course with
  | unseen unknown never none =>
    refine .unseen unknown ?_ (same.trans none)
    rw [List.forall_mem_append, List.forall_mem_singleton]
    refine ⟨never, ?_⟩
    rintro ⟨_, d?, -, polled, -⟩
    exact unpolled d? polled
  | seen looks placed yields =>
    refine .seen (looks.append _) ?_ ?_
    · rw [same]
      exact placed
    · rw [same]
      exact yields.mono grows

/-- The message that a look finds continues those of its topic. -/
theorem yields_next {b : Broker} {d? : Option Delivery} {topics : List String} {offset : Nat}
    {ds : List Delivery} (next : c.next b topics = (d?, c')) (yields : b.Yields topic offset ds)
    (stands : c.position b topic = offset + ds.length) :
    b.Yields topic offset (ds ++ d?.toList.filter fun d => d.topic = topic) := by
  cases d? with
  | none => simpa using yields
  | some d =>
    by_cases same : d.topic = topic
    · subst same
      obtain ⟨-, r, holds, made⟩ := Consumer.message_of_next next
      rw [stands] at holds made
      simp only [Option.toList_some, List.filter_cons, decide_true, if_true, List.filter_nil]
      rw [made]
      exact yields.concat holds
    · simpa [same] using yields

/-- A look goes on where the consumer stands, or where its group has got if it is the first one. -/
theorem looks (course : Course steps s.broker id c topic) (increasing : c.topics.Pairwise (· < ·))
    (opened : s.consumers[id]? = some c) {d? : Option Delivery}
    (next : c.next s.broker c.topics = (d?, c')) (grows : s.broker.Grows s'.broker) :
    Course (steps ++ [⟨s, .poll id (.ok d?), s'⟩]) s'.broker id c' topic := by
  have known : c'.positions.get? topic ≠ none ↔ c.positions.get? topic ≠ none ∨ c.LooksAt s.broker topic :=
    Consumer.known_of_next increasing next
  have given : deliveries id topic (steps ++ [⟨s, .poll id (.ok d?), s'⟩]) =
      deliveries id topic steps ++ d?.toList.filter fun d => d.topic = topic := by
    simp only [deliveries_concat, Step.delivery?, if_pos]
  have goesOn {first : Step} (firstLook : FirstLook (steps ++ [⟨s, .poll id (.ok d?), s'⟩]) id topic first)
      (stands : c.position s.broker topic =
        first.before.broker.reached c.group topic + (deliveries id topic steps).length)
      (yields : s.broker.Yields topic (first.before.broker.reached c.group topic) (deliveries id topic steps))
      (placed : c'.positions.get? topic ≠ none) :
      Course (steps ++ [⟨s, .poll id (.ok d?), s'⟩]) s'.broker id c' topic := by
    obtain ⟨p, placed⟩ := Option.ne_none_iff_exists'.mp placed
    have moved := Consumer.position_of_known next placed
    refine .seen firstLook ?_ ?_
    · rw [placed, moved, stands, given, List.length_append, (Consumer.same_of_next next).1, Nat.add_assoc]
    · rw [given, (Consumer.same_of_next next).1]
      exact (yields_next next yields stands).mono grows
  cases course with
  | seen looks placed yields =>
    refine goesOn (looks.append _) ?_ yields (known.mpr (.inl ?_))
    · rw [Consumer.position, placed, Option.getD_some]
    · rw [placed]
      exact Option.some_ne_none _
  | unseen unknown never nothing =>
    by_cases here : c.LooksAt s.broker topic
    · refine goesOn ⟨steps, [], rfl, ⟨c, d?, opened, rfl, here⟩, never⟩ ?_ ?_ (known.mpr (.inr here))
      · rw [Consumer.position, unknown, nothing]
        rfl
      · rw [nothing]
        exact Broker.yields_nil _ _ _
    · refine .unseen ?_ ?_ ?_
      · exact not_not.mp fun some => (known.mp some).elim (fun some => some unknown) here
      · rw [List.forall_mem_append, List.forall_mem_singleton]
        refine ⟨never, ?_⟩
        rintro ⟨_, _, opened', -, looks⟩
        obtain rfl := Option.some.inj (opened.symm.trans opened')
        exact here looks
      · -- a message of the topic would be found only by looking there
        rw [given, nothing, List.nil_append, List.filter_eq_nil_iff]
        intro d found same
        obtain rfl : d? = some d := Option.mem_toList.mp found
        obtain rfl : d.topic = topic := of_decide_eq_true same
        refine here ⟨(Consumer.message_of_next next).1, fun earlier listed before => ?_⟩
        refine Consumer.not_hasUnread_of_next increasing next listed ?_
        rintro _ ⟨⟩
        exact before

end Course

namespace Reading

variable {steps : List Step} {s s' : Site} {o : Operation} {id : Nat} {sub : Subscription} {c : Consumer}

/-- A consumer that has just been opened has been given nothing. -/
theorem of_connect {answer : Except BrokerError Nat}
    (unopened : ∀ step ∈ steps, step.before.consumers[id]? = none ∧ step.after.consumers[id]? = none ∧
      ∀ answer, step.operation ≠ .poll id answer)
    (before : s.consumers[id]? = none)
    (opened : s'.consumers[id]? = some ⟨sub.group, Names.ofList sub.topics, []⟩) :
    Reading (steps ++ [⟨s, .connect sub answer, s'⟩]) s' id sub ⟨sub.group, Names.ofList sub.topics, []⟩ := by
  have unpolled : ∀ step ∈ steps ++ [⟨s, .connect sub answer, s'⟩], ∀ d?,
      step.operation ≠ .poll id (.ok d?) := by
    rw [List.forall_mem_append, List.forall_mem_singleton]
    exact ⟨fun step done d? => (unopened step done).2.2 (.ok d?), nofun⟩
  refine ⟨opened, rfl, rfl, fun topic => .unseen rfl ?_ (deliveries_eq_nil unpolled),
    fun topic _ => deliveries_eq_nil unpolled, ?_⟩
  · rintro step done ⟨_, d?, -, polled, -⟩
    exact unpolled step done d? polled
  · rw [List.forall_mem_append, List.forall_mem_singleton]
    constructor
    · intro step done c' here
      obtain ⟨absent, absent', -⟩ := unopened step done
      simp only [absent, absent', reduceCtorEq, or_self] at here
    · intro c' here
      simp only [before, opened, reduceCtorEq, false_or, Option.some_inj] at here
      cases here
      exact ⟨rfl, rfl⟩

theorem step (reading : Reading steps s id sub c) (does : s.Does o s') :
    ∃ c', Reading (steps ++ [⟨s, o, s'⟩]) s' id sub c' := by
  have throughout {c' : Consumer} (opened : s'.consumers[id]? = some c') (group : c'.group = c.group)
      (topics : c'.topics = c.topics) : ∀ step ∈ steps ++ [⟨s, o, s'⟩], ∀ c',
        step.before.consumers[id]? = some c' ∨ step.after.consumers[id]? = some c' →
          c'.group = sub.group ∧ c'.topics = Names.ofList sub.topics := by
    rw [List.forall_mem_append, List.forall_mem_singleton]
    refine ⟨reading.throughout, fun c'' here => ?_⟩
    rcases here with before | after
    · obtain rfl := Option.some.inj (reading.opened.symm.trans before)
      exact ⟨reading.group, reading.topics⟩
    · obtain rfl := Option.some.inj (opened.symm.trans after)
      exact ⟨group.trans reading.group, topics.trans reading.topics⟩
  have increasing : c.topics.Pairwise (· < ·) := reading.topics ▸ Names.pairwise_ofList _
  rcases does.consumer_cases reading.opened with ⟨opened, unpolled⟩ | ⟨d?, c', rfl, next, opened, -⟩
  · have course (topic : String) := (reading.course topic).others does.grows unpolled
    refine ⟨c, opened, reading.group, reading.topics, course, fun topic foreign => ?_,
      throughout opened rfl rfl⟩
    rw [deliveries_concat_of_nothing (delivery?_eq_none unpolled)]
    exact reading.foreign topic foreign
  · obtain ⟨group, topics⟩ := Consumer.same_of_next next
    refine ⟨c', opened, group.trans reading.group, topics.trans reading.topics, fun topic => ?_,
      fun topic foreign => ?_, throughout opened group topics⟩
    · exact (reading.course topic).looks increasing reading.opened next does.grows
    · rw [deliveries_concat, reading.foreign topic foreign, List.nil_append, List.filter_eq_nil_iff]
      simp only [Step.delivery?, if_pos, Option.mem_toList, decide_eq_true_eq]
      rintro d rfl rfl
      have listed := (Consumer.message_of_next next).1
      rw [reading.topics, Names.mem_ofList] at listed
      exact foreign listed

end Reading

namespace Site.Runs

variable {start : Broker} {steps : List Step} {s : Site}

/-- Each step was done in a run of its own. -/
theorem exists_before (runs : Runs start steps s) {step : Step} (done : step ∈ steps) :
    ∃ earlier, Runs start earlier step.before ∧ step.before.Does step.operation step.after := by
  induction runs with
  | start => cases done
  | step earlier does ih =>
    rcases List.mem_append.mp done with before | now
    · exact ih before
    · cases List.mem_singleton.mp now
      exact ⟨_, earlier, does⟩

theorem increasing (runs : Runs start steps s) : ∀ c ∈ s.consumers, c.topics.Pairwise (· < ·) := by
  induction runs with
  | start => exact fun _ listed => absurd listed List.not_mem_nil
  | step _ does ih => exact does.increasing ih

/-- Consumers are never taken away. -/
theorem length_le (runs : Runs start steps s) : ∀ step ∈ steps,
    step.before.consumers.length ≤ s.consumers.length ∧
      step.after.consumers.length ≤ s.consumers.length := by
  induction runs with
  | start => exact fun _ done => absurd done List.not_mem_nil
  | step _ does ih =>
    rw [List.forall_mem_append, List.forall_mem_singleton]
    refine ⟨fun step done => ?_, does.length_le, Nat.le_refl _⟩
    obtain ⟨before, after⟩ := ih step done
    exact ⟨Nat.le_trans before does.length_le, Nat.le_trans after does.length_le⟩

/-- A consumer that has not been opened is nowhere to be found, and nobody polls it. -/
theorem unopened (runs : Runs start steps s) {id : Nat} (beyond : s.consumers.length ≤ id) :
    ∀ step ∈ steps, step.before.consumers[id]? = none ∧ step.after.consumers[id]? = none ∧
      ∀ answer, step.operation ≠ .poll id answer := by
  intro step done
  obtain ⟨before, after⟩ := runs.length_le step done
  have unopened : step.before.consumers[id]? = none := List.getElem?_eq_none (Nat.le_trans before beyond)
  refine ⟨unopened, List.getElem?_eq_none (Nat.le_trans after beyond), fun answer polled => ?_⟩
  obtain ⟨earlier, -, does⟩ := runs.exists_before done
  obtain ⟨s₁, o, s₂⟩ := step
  obtain rfl : o = .poll id answer := polled
  cases does with
  | poll opened _ =>
    rw [unopened] at opened
    cases opened

theorem exists_reading_of_connect (runs : Runs start steps s) {s' : Site} {sub : Subscription} {id : Nat}
    (does : s.Does (.connect sub (.ok id)) s') :
    ∃ c, Reading (steps ++ [⟨s, .connect sub (.ok id), s'⟩]) s' id sub c := by
  cases does with
  | connect connected =>
    unfold Consumer.connect at connected
    split at connected <;> cases connected
    exact ⟨_, .of_connect (runs.unopened (Nat.le_refl _)) (List.getElem?_eq_none (Nat.le_refl _))
      List.getElem?_concat_length⟩

theorem exists_reading (runs : Runs start steps s) {connect : Step} {sub : Subscription} {id : Nat}
    (done : connect ∈ steps) (connects : connect.operation = .connect sub (.ok id)) :
    ∃ c, Reading steps s id sub c := by
  induction runs with
  | start => cases done
  | step earlier does ih =>
    rcases List.mem_append.mp done with before | now
    · obtain ⟨c, reading⟩ := ih before
      exact reading.step does
    · cases List.mem_singleton.mp now
      cases connects
      exact earlier.exists_reading_of_connect does

/-- Over any run, each step is regular: logs grow at their ends, and only by what is appended or published
there; an appended record is found at the offset that is answered; a poll that answers an error reads nothing,
one that answers nothing leaves nothing to read in the consumer's topics, and the message of a poll comes from
the first of them in order that has an unread record. A consumer has the group and the topics of its
subscription. From other topics it is given nothing; from each of its topics it is given nothing until it looks
there, and from then on the records that stand, one after another, from where its group had got at this first
look. -/
theorem serves_in_order (runs : Runs start steps s) :
    (∀ step ∈ steps, step.Regular) ∧
    ∀ connect ∈ steps, ∀ sub id, connect.operation = .connect sub (.ok id) →
      (∀ step ∈ steps, ∀ c, step.before.consumers[id]? = some c ∨ step.after.consumers[id]? = some c →
        c.group = sub.group ∧ c.topics = Names.ofList sub.topics) ∧
      (∀ topic ∉ sub.topics, deliveries id topic steps = []) ∧
      ∀ topic, ((∀ step ∈ steps, ¬ step.LooksAt id topic) ∧ deliveries id topic steps = []) ∨
        ∃ first, FirstLook steps id topic first ∧ s.broker.Yields topic
          (first.before.broker.reached sub.group topic) (deliveries id topic steps) := by
  constructor
  · intro step done
    obtain ⟨earlier, before, does⟩ := runs.exists_before done
    exact does.regular before.increasing
  · intro connect done sub id connects
    obtain ⟨c, reading⟩ := runs.exists_reading done connects
    refine ⟨reading.throughout, reading.foreign, fun topic => ?_⟩
    rw [← reading.group]
    cases reading.course topic with
    | unseen _ never nothing => exact .inl ⟨never, nothing⟩
    | seen looks _ yields => exact .inr ⟨_, looks, yields⟩

end Site.Runs

namespace Sample

/-- A record with a key. -/
def keyed (key : String) : Record := ⟨some key, none⟩

/-- A consumer that has read this many records of the orders, or has not looked yet. -/
def reader (read : Option Nat) : Consumer :=
  ⟨"billing", ["orders"], read.toList.map fun n => ("orders", n)⟩

/-- A broker with a record, after it was committed, and with another record behind it. -/
def one : Broker := Broker.empty.append "orders" (keyed "a")

def committedOne : Broker := one.commit "billing" "orders" 0

def two : Broker := committedOne.append "orders" (keyed "b")

/-- Two consumers of one group: the second is opened when the first has committed the first record, and polls
until there is nothing left. -/
def relay : List Step :=
  [⟨⟨.empty, []⟩, .append "orders" (keyed "a") 0, ⟨one, []⟩⟩,
    ⟨⟨one, []⟩, .connect ⟨[], "billing", ["orders", "orders"]⟩ (.ok 0), ⟨one, [reader none]⟩⟩,
    ⟨⟨one, [reader none]⟩, .poll 0 (.ok (some ((keyed "a").message "orders" 0))), ⟨one, [reader (some 1)]⟩⟩,
    ⟨⟨one, [reader (some 1)]⟩, .commit 0 ((keyed "a").message "orders" 0), ⟨committedOne, [reader (some 1)]⟩⟩,
    ⟨⟨committedOne, [reader (some 1)]⟩, .append "orders" (keyed "b") 1, ⟨two, [reader (some 1)]⟩⟩,
    ⟨⟨two, [reader (some 1)]⟩, .connect ⟨[], "billing", ["orders"]⟩ (.ok 1),
      ⟨two, [reader (some 1), reader none]⟩⟩,
    ⟨⟨two, [reader (some 1), reader none]⟩, .poll 1 (.ok (some ((keyed "b").message "orders" 1))),
      ⟨two, [reader (some 1), reader (some 2)]⟩⟩,
    ⟨⟨two, [reader (some 1), reader (some 2)]⟩, .poll 1 (.ok none),
      ⟨two, [reader (some 1), reader (some 2)]⟩⟩]

theorem runs_relay : Site.Runs .empty relay ⟨two, [reader (some 1), reader (some 2)]⟩ := by
  have opened : Site.Does ⟨one, []⟩ (.connect ⟨[], "billing", ["orders", "orders"]⟩ (.ok 0))
      ⟨one, [reader none]⟩ := .connect rfl
  have polled : Site.Does ⟨one, [reader none]⟩ (.poll 0 (.ok (some ((keyed "a").message "orders" 0))))
      ⟨one, [reader (some 1)]⟩ := .poll rfl rfl
  have committed : Site.Does ⟨one, [reader (some 1)]⟩ (.commit 0 ((keyed "a").message "orders" 0))
      ⟨committedOne, [reader (some 1)]⟩ := .commit rfl rfl
  have opened' : Site.Does ⟨two, [reader (some 1)]⟩ (.connect ⟨[], "billing", ["orders"]⟩ (.ok 1))
      ⟨two, [reader (some 1), reader none]⟩ := .connect rfl
  have polled' : Site.Does ⟨two, [reader (some 1), reader none]⟩
      (.poll 1 (.ok (some ((keyed "b").message "orders" 1)))) ⟨two, [reader (some 1), reader (some 2)]⟩ :=
    .poll rfl rfl
  have nothing : Site.Does ⟨two, [reader (some 1), reader (some 2)]⟩ (.poll 1 (.ok none))
      ⟨two, [reader (some 1), reader (some 2)]⟩ := .poll rfl rfl
  exact (((Site.Runs.start.step (.append ..)).step opened).step polled).step committed |>.step (.append ..)
    |>.step opened' |>.step polled' |>.step nothing

end Sample

/-- The second consumer is given the second record, as its group had got past the first one when it first
looked. -/
theorem Site.Runs.sample_serves_in_order :
    Site.Runs .empty Sample.relay ⟨Sample.two, [Sample.reader (some 1), Sample.reader (some 2)]⟩ ∧
    deliveries 1 "orders" Sample.relay = [(Sample.keyed "b").message "orders" 1] ∧
    deliveries 1 "users" Sample.relay = [] ∧
    ∃ first, FirstLook Sample.relay 1 "orders" first ∧
      first.before.broker.reached "billing" "orders" = 1 := by
  obtain ⟨-, foreign, course⟩ := Sample.runs_relay.serves_in_order.2 Sample.relay[5] (by simp [Sample.relay])
    ⟨[], "billing", ["orders"]⟩ 1 rfl
  refine ⟨Sample.runs_relay, rfl, foreign "users" (by decide), ?_⟩
  rcases course "orders" with ⟨-, nothing⟩ | ⟨first, looks, yields⟩
  · cases nothing
  · obtain ⟨r, -, same⟩ := yields 0 ((Sample.keyed "b").message "orders" 1) rfl
    exact ⟨first, looks, (Int.ofNat_inj.mp (congrArg Delivery.offset same)).symm⟩

end EventPipeline.Memory
