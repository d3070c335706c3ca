import EventPipeline.Proofs.Memory.Agenda

/-! # One look at the topics

A consumer that looks for a record goes over its topics in increasing order and stops at the first one that
has a record it has not read. The topics that it passes have none (`Consumer.not_hasUnread_of_next`), what it
finds is the record where it stands (`Consumer.message_of_next`), and it then knows where it stands in the
topics that it got to and in no others (`Consumer.known_of_next`).
-/

namespace EventPipeline.Memory

namespace Consumer

variable {b : Broker} {c c' : Consumer} {d : Delivery} {d? : Option Delivery} {topic : String}
  {topics : List String}

/-- A topic has a record that the consumer has not read. -/
def HasUnread (c : Consumer) (b : Broker) (topic : String) : Prop :=
  c.position b topic < b.nextOffset topic

/-- A consumer that looks for a record gets as far as this topic. -/
def LooksAt (c : Consumer) (b : Broker) (topic : String) : Prop :=
  topic ∈ c.topics ∧ ∀ earlier ∈ c.topics, earlier < topic → ¬ c.HasUnread b earlier

theorem hasUnread_congr {b' : Broker} (arrivals : b'.arrivals = b.arrivals)
    (offsets : b'.offsets = b.offsets) (topic : String) : c.HasUnread b' topic ↔ c.HasUnread b topic := by
  simp only [HasUnread, position, Broker.reached, Broker.committed?, Broker.nextOffset, Broker.records,
    arrivals, offsets]

theorem known_of_look (c : Consumer) (b : Broker) (topic other : String) :
    (c.look b topic).1.positions.get? other ≠ none ↔ other = topic ∨ c.positions.get? other ≠ none := by
  unfold look
  by_cases same : other = topic
  · subst same
    split
    · next known => simp [known]
    · simp [Table.get?_set_self]
  · split
    · simp [same]
    · simp [Table.get?_set_of_ne _ _ same, same]

/-- The topics that are passed have no unread record. -/
theorem not_hasUnread_of_next (increasing : topics.Pairwise (· < ·)) (next : c.next b topics = (d?, c'))
    (listed : topic ∈ topics) (passed : ∀ d, d? = some d → topic < d.topic) : ¬ c.HasUnread b topic := by
  induction topics generalizing c with
  | nil => cases listed
  | cons head rest ih =>
    obtain ⟨least, increasing⟩ := List.pairwise_cons.mp increasing
    obtain ⟨middle, looked, ⟨r, -, found⟩ | ⟨beyond, onward⟩⟩ := c.next_cons_cases b head rest
    · rw [next] at found
      cases found
      have before : topic < head := passed _ rfl
      rcases List.mem_cons.mp listed with rfl | later
      · exact absurd before (String.lt_irrefl _)
      · exact absurd before (String.lt_asymm (least topic later))
    · rcases List.mem_cons.mp listed with rfl | later
      · exact Nat.not_lt.mpr beyond
      · rw [HasUnread, ← looked.position_eq]
        exact ih increasing (onward ▸ next) later

/-- A look that finds nothing leaves nothing to read. -/
theorem not_hasUnread_of_none (increasing : topics.Pairwise (· < ·)) (next : c.next b topics = (none, c'))
    (listed : topic ∈ topics) : ¬ c'.HasUnread b topic := by
  have read := not_hasUnread_of_next increasing next listed nofun
  rcases c.next_cases b topics with ⟨_, nothing, looked⟩ | ⟨_, _, -, -, found⟩
  · rw [next] at nothing
    cases nothing
    rw [HasUnread, looked.position_eq]
    exact read
  · rw [next] at found
    cases found

/-- What is found is the record at the consumer's position in one of the topics. -/
theorem message_of_next (found : c.next b topics = (some d, c')) :
    d.topic ∈ topics ∧ ∃ r, b.Holds d.topic (c.position b d.topic) r ∧
      d = r.message d.topic (c.position b d.topic) := by
  induction topics generalizing c with
  | nil => cases found
  | cons head rest ih =>
    obtain ⟨middle, looked, ⟨r, holds, here⟩ | ⟨-, onward⟩⟩ := c.next_cons_cases b head rest
    · rw [found] at here
      cases here
      exact ⟨List.mem_cons_self .., r, holds, rfl⟩
    · obtain ⟨listed, r, holds, same⟩ := ih (onward ▸ found)
      rw [looked.position_eq] at holds same
      exact ⟨List.mem_cons_of_mem _ listed, r, holds, same⟩

/-- After a look the consumer knows where it stands in the topics that it got to. -/
theorem known_of_next (increasing : topics.Pairwise (· < ·)) (next : c.next b topics = (d?, c')) :
    c'.positions.get? topic ≠ none ↔ c.positions.get? topic ≠ none ∨
      topic ∈ topics ∧ ∀ earlier ∈ topics, earlier < topic → ¬ c.HasUnread b earlier := by
  induction topics generalizing c with
  | nil =>
    cases next
    simp
  | cons head rest ih =>
    obtain ⟨least, increasing⟩ := List.pairwise_cons.mp increasing
    obtain ⟨looked, stands⟩ := c.look_spec b head
    have known := c.known_of_look b head topic
    have headFirst : ∀ earlier ∈ head :: rest, ¬ earlier < head := by
      intro earlier listed
      rcases List.mem_cons.mp listed with rfl | later
      · exact String.lt_irrefl _
      · exact String.lt_asymm (least earlier later)
    cases found : (b.records head)[c.position b head]? with
    | some r =>
      -- the look ends here, as the first topic has an unread record
      have unread : c.HasUnread b head := (List.getElem?_eq_some_iff.mp found).1
      simp only [Consumer.next, stands, found] at next
      cases next
      by_cases same : topic = head
      · subst same
        simp only [Table.get?_set_self, List.mem_cons_self, true_and]
        refine iff_of_true (Option.some_ne_none _) (.inr fun earlier listed before => ?_)
        exact absurd before (headFirst earlier listed)
      · rw [Table.get?_set_of_ne _ _ same, known]
        have notPassed : ¬ (topic ∈ head :: rest ∧
            ∀ earlier ∈ head :: rest, earlier < topic → ¬ c.HasUnread b earlier) := by
          rintro ⟨listed, passed⟩
          have later := (List.mem_cons.mp listed).resolve_left same
          exact passed head (List.mem_cons_self ..) (least topic later) unread
        simp only [same, false_or, notPassed, or_false]
    | none =>
      have read : ¬ c.HasUnread b head := Nat.not_lt.mpr (List.getElem?_eq_none_iff.mp found)
      simp only [Consumer.next, stands, found] at next
      rw [ih increasing next, known]
      simp only [HasUnread, looked.position_eq] at read ⊢
      simp only [List.mem_cons, forall_eq_or_imp, read]
      grind

/-- After a look the consumer stands where it stood, or one further in the topic of the message. -/
theorem position_of_known (next : c.next b topics = (d?, c')) {p : Nat}
    (known : c'.positions.get? topic = some p) :
    p = c.position b topic + (d?.toList.filter fun d => d.topic = topic).length := by
  rcases c.next_cases b topics with ⟨_, nothing, looked⟩ | ⟨d, middle, -, looked, found⟩
  · rw [next] at nothing
    cases nothing
    exact looked.placed topic p known
  · rw [next] at found
    cases found
    by_cases same : topic = d.topic
    · subst same
      rw [Table.get?_set_self] at known
      simpa using (Option.some.inj known).symm
    · rw [Table.get?_set_of_ne _ _ same] at known
      simpa [Ne.symm same] using looked.placed topic p known

theorem same_of_next (next : c.next b topics = (d?, c')) : c'.group = c.group ∧ c'.topics = c.topics := by
  rcases c.next_cases b topics with ⟨_, nothing, looked⟩ | ⟨d, middle, -, looked, found⟩
  · rw [next] at nothing
    cases nothing
    exact ⟨looked.group, looked.topics⟩
  · rw [next] at found
    cases found
    exact ⟨looked.group, looked.topics⟩

/-- A poll answers an error that was arranged, and then nothing has been looked at, or what the look at the
consumer's topics finds. -/
theorem poll_cases {b' : Broker} {answer : Except BrokerError (Option Delivery)} {log : List LogEntry}
    (polled : c.poll b = ((answer, c'), b', log)) :
    b'.arrivals = b.arrivals ∧ b'.offsets = b.offsets ∧
      ((∃ e, answer = .error e ∧ c' = c) ∨ ∃ d?, answer = .ok d? ∧ c.next b c.topics = (d?, c')) := by
  have hosted : World.host.poll c .zero ⟨b, false, 0, ()⟩ =
      ((answer, c'), ⟨b', false, 0, ()⟩, log) := by
    simp only [World.host, World.onBroker, polled]
  obtain ⟨same, cases⟩ := World.poll_cases hosted
  exact ⟨same.arrivals, same.offsets, cases⟩

end Consumer

end EventPipeline.Memory
