import EventPipeline.Memory.World

/-! # Logs, commits and positions

The log of a topic only grows, so a record that a broker holds at an offset stays there. A group has
reached the offset after its last committed message, and a commit moves it past that message only. A
consumer that fetches a message reads it at its position, which is where its group had got when the
consumer first looked at the topic, and then stands one further.
-/

namespace EventPipeline.Memory

namespace Broker

/-- All records stay where they are, and more may stand behind them. -/
def Grows (b b' : Broker) : Prop := b.arrivals <+: b'.arrivals

/-- The record of a topic at an offset. -/
def Holds (b : Broker) (topic : String) (offset : Nat) (r : Record) : Prop :=
  (b.records topic)[offset]? = some r

/-- The message is the record of its topic at its offset. -/
def Delivers (b : Broker) (d : Delivery) : Prop :=
  ∃ (offset : Nat) (r : Record), d.offset = offset ∧ b.Holds d.topic offset r ∧
    d.key = r.key.map octetsOf ∧ d.payload = r.payload

/-- The offset that a group will read from next on a topic. -/
def reached (b : Broker) (group topic : String) : Nat := (b.committed? group topic).getD 0

variable {b b' b'' : Broker} {group topic : String} {offset : Nat} {r r' : Record}

theorem records_congr (same : b'.arrivals = b.arrivals) (topic : String) :
    b'.records topic = b.records topic := by
  rw [records, records, same]

theorem committed?_congr (same : b'.offsets = b.offsets) (group topic : String) :
    b'.committed? group topic = b.committed? group topic := by
  rw [committed?, committed?, same]

theorem reached_congr (same : b'.committed? group topic = b.committed? group topic) :
    b'.reached group topic = b.reached group topic := by
  rw [reached, reached, same]

theorem Grows.refl (b : Broker) : b.Grows b := List.prefix_refl _

theorem Grows.trans (first : b.Grows b') (second : b'.Grows b'') : b.Grows b'' :=
  List.IsPrefix.trans first second

theorem grows_of_arrivals_eq (same : b'.arrivals = b.arrivals) : b.Grows b' := by
  unfold Grows
  exact same ▸ List.prefix_refl _

theorem grows_append (b : Broker) (topic : String) (r : Record) : b.Grows (b.append topic r) :=
  List.prefix_append _ _

theorem Grows.records (grows : b.Grows b') (topic : String) :
    b.records topic <+: b'.records topic :=
  (grows.filter _).map _

theorem Grows.nextOffset_le (grows : b.Grows b') (topic : String) :
    b.nextOffset topic ≤ b'.nextOffset topic := (grows.records topic).length_le

theorem Holds.mono (holds : b.Holds topic offset r) (grows : b.Grows b') :
    b'.Holds topic offset r := by
  obtain ⟨more, longer⟩ := grows.records topic
  have inside := (List.getElem?_eq_some_iff.mp holds).1
  rw [Holds, ← longer, List.getElem?_append_left inside]
  exact holds

theorem Holds.lt (holds : b.Holds topic offset r) : offset < b.nextOffset topic :=
  (List.getElem?_eq_some_iff.mp holds).1

theorem Delivers.mono {d : Delivery} (delivers : b.Delivers d) (grows : b.Grows b') :
    b'.Delivers d := by
  obtain ⟨offset, r, placed, holds, same⟩ := delivers
  exact ⟨offset, r, placed, holds.mono grows, same⟩

theorem Holds.unique (holds : b.Holds topic offset r) (holds' : b.Holds topic offset r') :
    r = r' := Option.some.inj (holds.symm.trans holds')

theorem Delivers.payload_eq {d : Delivery} (delivers : b.Delivers d) (holds : b.Holds topic offset r)
    (sameTopic : d.topic = topic) (sameOffset : d.offset = offset) : d.payload = r.payload := by
  obtain ⟨offset', r', placed, holds', -, payload⟩ := delivers
  have same : offset' = offset := Int.ofNat_inj.mp (placed.symm.trans sameOffset)
  rw [sameTopic, same] at holds'
  rw [payload, holds'.unique holds]

theorem Holds.mem (holds : b.Holds topic offset r) : r ∈ b.records topic :=
  List.mem_of_getElem? holds

/-- A new record of a topic stands at the offset that was the next one. -/
theorem holds_append (b : Broker) (topic : String) (r : Record) :
    (b.append topic r).Holds topic (b.nextOffset topic) r := by
  rw [Holds, records_append_self, nextOffset, List.getElem?_concat_length]

/-- No error is arranged for a group, or the first one is taken away. -/
theorem takeError_cases (b : Broker) (group : String) :
    b.takeError group = (none, b) ∨
      ∃ e rest, b.pollErrors.get? group = some (e :: rest) ∧
        b.takeError group = (some e, { b with pollErrors := b.pollErrors.set group rest }) := by
  unfold takeError
  split
  · next e rest arranged => exact .inr ⟨e, rest, arranged, rfl⟩
  · exact .inl rfl

/-- A commit moves the group past the message, and never back. -/
theorem reached_commit_self (b : Broker) (group topic : String) (offset : Int) :
    (b.commit group topic offset).reached group topic =
      max (b.reached group topic) (offset + 1).toNat := by
  rw [reached, commit, committed?, Table.get?_set_self]
  rfl

/-- A commit is one of its group in its topic only. -/
theorem committed?_commit_of_ne (b : Broker) {group group' topic topic' : String} (offset : Int)
    (other : (group', topic') ≠ (group, topic)) :
    (b.commit group topic offset).committed? group' topic' = b.committed? group' topic' :=
  Table.get?_set_of_ne _ _ other

theorem committed?_commit_of_topic_ne (b : Broker) {group group' topic topic' : String} (offset : Int)
    (other : topic' ≠ topic) :
    (b.commit group topic offset).committed? group' topic' = b.committed? group' topic' :=
  b.committed?_commit_of_ne offset fun same => other (congrArg Prod.snd same)

theorem committed?_commit_of_group_ne (b : Broker) {group group' topic topic' : String} (offset : Int)
    (other : group' ≠ group) :
    (b.commit group topic offset).committed? group' topic' = b.committed? group' topic' :=
  b.committed?_commit_of_ne offset fun same => other (congrArg Prod.fst same)

theorem reached_commit_of_ne (b : Broker) {group group' topic topic' : String} (offset : Int)
    (other : (group', topic') ≠ (group, topic)) :
    (b.commit group topic offset).reached group' topic' = b.reached group' topic' :=
  reached_congr (b.committed?_commit_of_ne offset other)

theorem reached_le_commit (b : Broker) (group topic : String) (offset : Int)
    (group' topic' : String) :
    b.reached group' topic' ≤ (b.commit group topic offset).reached group' topic' := by
  by_cases same : (group', topic') = (group, topic)
  · cases same
    rw [reached_commit_self]
    exact Nat.le_max_left ..
  · exact Nat.le_of_eq (reached_commit_of_ne b offset same).symm

end Broker

namespace Consumer

/-- Where a consumer stands in a topic: its own position, or that of its group if it has not looked
at the topic yet. -/
def position (c : Consumer) (b : Broker) (topic : String) : Nat :=
  (c.positions.get? topic).getD (b.reached c.group topic)

theorem position_set_self (c : Consumer) (b : Broker) (topic : String) (p : Nat) :
    position { c with positions := c.positions.set topic p } b topic = p := by
  rw [position, Table.get?_set_self, Option.getD_some]

theorem position_set_of_ne (c : Consumer) (b : Broker) {topic other : String} (p : Nat)
    (differ : other ≠ topic) :
    position { c with positions := c.positions.set topic p } b other = c.position b other := by
  rw [position, Table.get?_set_of_ne _ _ differ]
  rfl

/-- The second consumer is the first one after it has looked at some topics. -/
structure Looked (b : Broker) (c c' : Consumer) : Prop where
  group : c'.group = c.group
  topics : c'.topics = c.topics
  kept : ∀ topic p, c.positions.get? topic = some p → c'.positions.get? topic = some p
  placed : ∀ topic p, c'.positions.get? topic = some p → p = c.position b topic

theorem Looked.refl (b : Broker) (c : Consumer) : Looked b c c := by
  refine ⟨rfl, rfl, fun _ _ known => known, ?_⟩
  intro topic p known
  rw [position, known, Option.getD_some]

theorem Looked.position_eq {b : Broker} {c c' : Consumer} (looked : Looked b c c')
    (topic : String) : c'.position b topic = c.position b topic := by
  cases known : c'.positions.get? topic with
  | some p => rw [position, known, Option.getD_some, looked.placed topic p known]
  | none =>
    have unknown : c.positions.get? topic = none := by
      cases earlier : c.positions.get? topic with
      | none => rfl
      | some p =>
        rw [looked.kept topic p earlier] at known
        cases known
    rw [position, position, known, unknown, looked.group]

theorem Looked.trans {b : Broker} {c c' c'' : Consumer} (first : Looked b c c')
    (second : Looked b c' c'') : Looked b c c'' := by
  refine ⟨second.group.trans first.group, second.topics.trans first.topics,
    fun topic p known => second.kept topic p (first.kept topic p known), ?_⟩
  intro topic p known
  rw [second.placed topic p known, first.position_eq]

theorem look_spec (c : Consumer) (b : Broker) (topic : String) :
    Looked b c (c.look b topic).1 ∧ (c.look b topic).2 = c.position b topic := by
  unfold look
  split
  · next p known =>
    exact ⟨.refl b c, by rw [position, known, Option.getD_some]⟩
  · next unknown =>
    refine ⟨⟨rfl, rfl, ?_, ?_⟩, ?_⟩
    · intro other p known
      have differ : other ≠ topic := by
        rintro rfl
        rw [unknown] at known
        cases known
      rw [← known]
      exact Table.get?_set_of_ne _ _ differ
    · intro other p known
      by_cases same : other = topic
      · subst same
        dsimp only at known
        rw [Table.get?_set_self] at known
        cases known
        rw [position, unknown, Option.getD_none]
        rfl
      · dsimp only at known
        rw [Table.get?_set_of_ne _ _ same] at known
        rw [position, known, Option.getD_some]
    · rw [position, unknown, Option.getD_none]
      rfl

/-- The message is the record at the consumer's position in one of the topics. -/
structure Finds (c : Consumer) (b : Broker) (topics : List String) (d : Delivery) : Prop where
  subscribed : d.topic ∈ topics
  placed : d.offset = c.position b d.topic
  delivers : b.Delivers d

/-- A look at some topics finds a message, and the consumer moves past it, or none. -/
theorem next_cases (b : Broker) (topics : List String) (c : Consumer) :
    (∃ c', c.next b topics = (none, c') ∧ Looked b c c') ∨
      ∃ d middle, c.Finds b topics d ∧ Looked b c middle ∧
        c.next b topics = (some d, { middle with
          positions := middle.positions.set d.topic (c.position b d.topic + 1) }) := by
  induction topics generalizing c with
  | nil => exact .inl ⟨c, rfl, .refl b c⟩
  | cons topic topics ih =>
    obtain ⟨looked, stands⟩ := c.look_spec b topic
    cases found : (b.records topic)[c.position b topic]? with
    | some r =>
      refine .inr ⟨⟨topic, 0, c.position b topic, r.key.map octetsOf, r.payload⟩,
        (c.look b topic).1, ⟨List.mem_cons_self .., rfl, _, r, rfl, found, rfl, rfl⟩, looked, ?_⟩
      simp only [next, stands, found]
    | none =>
      have step : c.next b (topic :: topics) = (c.look b topic).1.next b topics := by
        simp only [next, stands, found]
      rcases ih (c.look b topic).1 with ⟨c', nothing, further⟩ | ⟨d, middle, finds, further, made⟩
      · exact .inl ⟨c', step.trans nothing, looked.trans further⟩
      · have same := looked.position_eq d.topic
        refine .inr ⟨d, middle, ⟨List.mem_cons_of_mem _ finds.subscribed, same ▸ finds.placed,
          finds.delivers⟩, looked.trans further, ?_⟩
        rw [step, made, same]

end Consumer

end EventPipeline.Memory
