import EventPipeline.Proofs.Envelope.Readable
import EventPipeline.Proofs.Worker.Settlements

/-! # Whether published data can be consumed

The envelope in which a publisher wraps data nests one deeper than the data. So of all data that can be
read, that which nests as deep as readers go is published but not read again, and every worker that
settles such a message drops it as malformed (`Publisher.read_sent`).
-/

namespace EventPipeline

open Json Memory Worker

variable {σ : Type}

/-- The payload that is written for an envelope is not blank. -/
theorem Delivery.content?_of_payload {d : Delivery} {e : Envelope} (payload : d.payload = some e.payload) :
    d.content? = some e.payload := by
  have brace : octet '\x7b' ∈ e.payload := by
    rw [Envelope.payload, Envelope.chars, List.cons_append, encodeChars_cons_ascii (by decide)]
    exact List.mem_cons_self ..
  have visible : e.payload.all isBlankOctet = false :=
    List.all_eq_false.mpr ⟨_, brace, by decide⟩
  rw [content?, payload, Option.filter_some, visible]
  rfl

namespace Envelope

variable {data : Value} (now : Int64) (app : String) (ns : Option String)

theorem depth_document_fresh : (fresh now app ns data).document.depth = data.depth + 1 := by
  rw [depth_document, fresh]
  exact congrArg (· + 1) (Nat.max_zero _)

theorem ordered_fresh (ordered : data.Ordered) : (fresh now app ns data).Ordered :=
  ⟨ordered, .nil, nofun⟩

/-- A new event is read back if its data nests less deep than readers go, and otherwise its payload is
none of an envelope at all. -/
theorem read_payload_fresh (ordered : data.Ordered) :
    read (fresh now app ns data).payload = .ok (fresh now app ns data) ∧ data.depth < maxDepth ∨
      (∃ error, read (fresh now app ns data).payload = .error error) ∧ maxDepth ≤ data.depth := by
  rcases Nat.lt_or_ge data.depth maxDepth with shallow | deep
  · have formed : (fresh now app ns data).WellFormed :=
      wellFormed_iff.mpr ⟨ordered_fresh now app ns ordered, nofun, by
        rw [depth_document_fresh]
        exact shallow⟩
    exact .inl ⟨read_payload formed, shallow⟩
  · refine .inr ⟨?_, deep⟩
    cases reads : read (fresh now app ns data).payload with
    | error error => exact ⟨error, rfl⟩
    | ok e => exact absurd (depth_data_of_read_payload ordered reads) (Nat.not_lt.mpr deep)

end Envelope

namespace Publisher

variable {p : Publisher (World σ)}

/-- Sending data adds a record with a new event, unless the topic refuses it. -/
theorem records_send (sink : p.sink = World.sink) (topic : String) (ns : Option String)
    (data : Value) (key : Option String) (world : World σ) :
    (p.send topic ns data key world).2.1.broker.records topic = world.broker.records topic ++
      if world.broker.refusing.contains topic then []
      else [⟨key, some (Envelope.fresh world.now p.app ns data).payload⟩] := by
  simp only [send, sendFilled, record, Act.bind_apply, Act.read_apply, sink, World.sink,
    World.onBroker, Broker.produce]
  split
  · simp
  · simp

/-- What is published can be consumed, except for data that nests as deep as readers go. If data that
was read is sent and a record is added to the topic, then the record's payload is read as an event with
the publisher's application, the namespace and the data exactly when the data nests less deep. No worker
drops a message with this payload as empty, and if the data nests as deep as readers go, every worker
that settles it drops it as malformed. -/
theorem read_sent (sink : p.sink = World.sink) {text : Octets} {data : Value}
    (parses : Value.read text = .ok data) {topic : String} {ns key : Option String}
    {world : World σ} {r : Record}
    (added : (p.send topic ns data key world).2.1.broker.records topic =
      world.broker.records topic ++ [r]) :
    r.key = key ∧ ∃ bs, r.payload = some bs ∧
      (Envelope.read bs = .ok (.fresh world.now p.app ns data) ↔ data.depth ≤ 126) ∧
      ∀ {ω κ : Type} {h : Host ω κ} {w : Worker ω} {moves : List (Move ω κ)} {s : WorkerState κ}
        {d : Delivery} {outcome : Outcome}, w.Makes h .initial moves s →
        (d, outcome) ∈ observed Occurrence.settlement? moves → d.payload = some bs →
        outcome ≠ .empty ∧ (outcome = .malformed ↔ data.depth = 127) := by
  have canonical := (canonical_of_read parses).ordered
  rw [records_send sink, List.append_cancel_left_eq] at added
  split at added
  · cases added
  · cases added
    refine ⟨rfl, _, rfl, ?_, ?_⟩
    · rcases Envelope.read_payload_fresh world.now p.app ns canonical.1 with
        ⟨reads, shallow⟩ | ⟨⟨error, reads⟩, deep⟩
      · exact iff_of_true reads (Nat.le_of_lt_succ shallow)
      · rw [reads]
        exact iff_of_false nofun (Nat.not_le.mpr deep)
    · intro ω κ h w moves s d outcome run settled payload
      obtain ⟨c, dispatch, last, dispatches, settling⟩ := run.exists_dispatch_of_settled rfl settled
      obtain ⟨empty, malformed⟩ := dispatches.dropped_iff settling
      rw [Delivery.content?_of_payload payload] at empty malformed
      refine ⟨fun same => Option.some_ne_none _ (empty.mp same), malformed.trans ?_⟩
      rcases Envelope.read_payload_fresh world.now p.app ns canonical.1 with
        ⟨reads, shallow⟩ | ⟨⟨error, reads⟩, deep⟩
      · refine iff_of_false ?_ (Nat.ne_of_lt shallow)
        rintro ⟨bs, e, same, unread⟩
        cases same
        rw [reads] at unread
        cases unread
      · exact iff_of_true ⟨_, error, rfl, reads⟩ (Nat.le_antisymm canonical.2 deep)

/-- Shallow data that is sent can be consumed. -/
theorem sample_read_sent : ∃ r bs,
    (Sample.publisher.send "orders" none (.nested 2) none Sample.world).2.1.broker.records "orders" =
      Sample.world.broker.records "orders" ++ [r] ∧ r.payload = some bs ∧
    Envelope.read bs = .ok (.fresh 0 "shop" none (.nested 2)) := by
  have parses : Value.read (octetsOf "[[[]]]") = .ok (.nested 2) := rfl
  have added := records_send (p := Sample.publisher) rfl "orders" none (.nested 2) none Sample.world
  obtain ⟨-, bs, payload, reads, -⟩ := read_sent (p := Sample.publisher) rfl parses added
  have shallow : (Value.nested 2).depth ≤ 126 := by decide
  exact ⟨_, bs, added, payload, reads.mpr shallow⟩

/-- Data as deep as readers go is read and sent, but what is sent cannot be consumed. -/
theorem sample_sent_unreadable :
    let data := Value.nested 126
    Value.read (encodeChars data.chars) = .ok data ∧ ∃ r bs,
      (Sample.publisher.send "orders" none data none Sample.world).2.1.broker.records "orders" =
        Sample.world.broker.records "orders" ++ [r] ∧ r.payload = some bs ∧
      ¬ ∃ e, Envelope.read bs = .ok e := by
  have ordered := Value.ordered_nested 126
  have depth := Value.depth_nested 126
  refine ⟨read_chars (ordered.canonical depth.le), _, _,
    records_send rfl "orders" none (.nested 126) none Sample.world, rfl, ?_⟩
  rintro ⟨e, reads⟩
  have shallow := Envelope.depth_data_of_read_payload (e := .fresh 0 "shop" none (.nested 126)) ordered
    reads
  exact absurd depth (Nat.ne_of_lt shallow)

end Publisher

end EventPipeline
