import EventPipeline.Act
import EventPipeline.Envelope.Reader
import EventPipeline.Names
import EventPipeline.Table

/-! # A broker in memory

Each topic is one log of records that only grows at its end, and each group has one committed offset
per topic. A consumer reads its topics in increasing order, each from the group's committed offset
at the moment when the consumer first looked at it, and its own position moves on with each record.
Failures can be arranged: topics that refuse records, groups that get no consumer, and errors that
the next polls of a group answer.
-/

namespace EventPipeline.Memory

/-- A record of a topic. -/
structure Record where
  key : Option String
  payload : Option Octets
  deriving DecidableEq

/-- The state of a broker. -/
structure Broker where
  /-- Every record with its topic, in the order of arrival. -/
  arrivals : List (String × Record)
  /-- The next offset that each group will read from a topic. -/
  offsets : Table (String × String) Nat
  /-- The topics that refuse records. -/
  refusing : List String
  /-- The groups that get no consumer. -/
  rejected : List String
  /-- The errors that the next polls of a group answer. -/
  pollErrors : Table String (List BrokerError)
  /-- The groups whose consumers were closed, in the order of closing. -/
  closed : List String

namespace Broker

/-- A broker without records. -/
def empty : Broker := ⟨[], [], [], [], [], []⟩

/-- The log of a topic. -/
def records (b : Broker) (topic : String) : List Record :=
  (b.arrivals.filter fun arrival => arrival.1 == topic).map Prod.snd

/-- Adds a record to the log of its topic. -/
def append (b : Broker) (topic : String) (r : Record) : Broker :=
  { b with arrivals := b.arrivals ++ [(topic, r)] }

/-- The offset of the next record of a topic. -/
def nextOffset (b : Broker) (topic : String) : Nat := (b.records topic).length

@[simp] theorem records_append_self (b : Broker) (topic : String) (r : Record) :
    (b.append topic r).records topic = b.records topic ++ [r] := by
  simp [records, append]

theorem records_append_of_ne (b : Broker) {topic other : String} (r : Record)
    (h : other ≠ topic) : (b.append topic r).records other = b.records other := by
  simp [records, append, Ne.symm h]

/-- The events on a topic whose records hold one. -/
def envelopes (b : Broker) (topic : String) : List Envelope :=
  ((b.records topic).filterMap Record.payload).filterMap fun payload =>
    (Envelope.read payload).toOption

/-- The next offset that a group will read from a topic, if it has committed any. -/
def committed? (b : Broker) (group topic : String) : Option Nat := b.offsets.get? (group, topic)

/-- Whether a group has committed at least an offset. -/
def hasCommitted (b : Broker) (group topic : String) (offset : Int) : Bool :=
  match b.committed? group topic with
  | some committed => offset ≤ committed
  | none => false

/-- Commits the offset after a message; a committed offset never goes back. -/
def commit (b : Broker) (group topic : String) (offset : Int) : Broker :=
  let before := (b.committed? group topic).getD 0
  { b with offsets := b.offsets.set (group, topic) (max before (offset + 1).toNat) }

/-- Makes a topic refuse records. -/
def refuse (b : Broker) (topic : String) : Broker := { b with refusing := topic :: b.refusing }

/-- Makes the broker open no consumer for a group. -/
def reject (b : Broker) (group : String) : Broker := { b with rejected := group :: b.rejected }

/-- Makes a poll of a group answer an error, after those arranged before. -/
def inject (b : Broker) (group : String) (e : BrokerError) : Broker :=
  let before := (b.pollErrors.get? group).getD []
  { b with pollErrors := b.pollErrors.set group (before ++ [e]) }

/-- Takes the next error arranged for the polls of a group. -/
def takeError (b : Broker) (group : String) : Option BrokerError × Broker :=
  match b.pollErrors.get? group with
  | some (e :: rest) => (some e, { b with pollErrors := b.pollErrors.set group rest })
  | _ => (none, b)

/-- Adds a published record to its topic, unless the topic refuses it. -/
def produce (record : Outgoing) : Act Broker (Except BrokerError Unit) := fun b =>
  if b.refusing.contains record.topic then
    (.error (.enqueue record.topic "topic unavailable"), b, [])
  else
    (.ok (), b.append record.topic ⟨record.key, some record.payload⟩,
      [.produced record.topic (b.nextOffset record.topic)])

end Broker

/-- An open consumer. -/
structure Consumer where
  group : String
  /-- The topics it reads, in increasing order. -/
  topics : List String
  /-- The offset of the next record to read from each topic that it has looked at. -/
  positions : Table String Nat
  deriving DecidableEq

namespace Consumer

/-- Opens a consumer, unless its group is rejected. -/
def connect (s : Subscription) : Act Broker (Except BrokerError Consumer) := fun b =>
  if b.rejected.contains s.group then
    (.error (.client ("group '" ++ s.group ++ "' rejected by broker")), b, [])
  else (.ok ⟨s.group, Names.ofList s.topics, []⟩, b, [])

/-- The consumer after a look at a topic, and where it stands in it. -/
def look (c : Consumer) (b : Broker) (topic : String) : Consumer × Nat :=
  match c.positions.get? topic with
  | some position => (c, position)
  | none =>
    let position := (b.committed? c.group topic).getD 0
    ({ c with positions := c.positions.set topic position }, position)

/-- Reads the next record of the first of some topics that has one. -/
def next (c : Consumer) (b : Broker) : List String → Option Delivery × Consumer
  | [] => (none, c)
  | topic :: topics =>
    let (c, position) := c.look b topic
    match (b.records topic)[position]? with
    | some record =>
      (some ⟨topic, 0, position, record.key.map octetsOf, record.payload⟩,
        { c with positions := c.positions.set topic (position + 1) })
    | none => c.next b topics

/-- Answers an error arranged for the group, or else the next message, if there is one. -/
def poll (c : Consumer) : Act Broker (Except BrokerError (Option Delivery) × Consumer) := fun b =>
  match b.takeError c.group with
  | (some e, b) => ((.error e, c), b, [])
  | (none, b) =>
    let (d, c) := c.next b c.topics
    ((.ok d, c), b, [])

/-- Commits the offset after a message. -/
def commit (c : Consumer) (d : Delivery) : Act Broker (Except BrokerError Unit × Consumer) :=
  fun b => ((.ok (), c), b.commit c.group d.topic d.offset, [])

/-- Closes the consumer. -/
def close (c : Consumer) : Act Broker Unit := fun b =>
  ((), { b with closed := b.closed ++ [c.group] }, [])

end Consumer

end EventPipeline.Memory
