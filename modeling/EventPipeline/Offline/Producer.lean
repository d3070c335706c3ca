import EventPipeline.Offline.Setup
import EventPipeline.Publisher

/-! # A producer without a broker

While no broker can be reached, records that are published wait in a line for each topic. They are
never acknowledged, so a flush succeeds only when nothing waits; and when the producer is discarded,
they have failed, which is reported line by line for as long as the producer stays.
-/

namespace EventPipeline.Offline

/-- The records that wait for one topic. -/
structure Line where
  topic : String
  /-- How many records wait. -/
  records : Nat
  /-- The octets in their payloads. -/
  octets : Nat
  deriving DecidableEq

/-- A producer. -/
structure Producer where
  /-- A line for each topic, in the order in which the topics were first published to. -/
  lines : List Line
  deriving DecidableEq

namespace Producer

variable {ω : Type}

/-- What a producer cannot use of its settings. -/
def fault? (c : Connection) (p : Producing) : Option SetupFault :=
  (connectionFault? c []).or
    (if takenNumber p.messageTimeoutMs < 0 then
      some (.messageTimeout p.messageTimeoutMs (takenNumber p.messageTimeoutMs))
    else none)

/-- Sets a producer up. -/
def create (c : Connection) (p : Producing) : Act ω (Except BrokerError Producer) := do
  c.announce
  match fault? c p with
  | some f => pure (.error (.client ("failed to create producer: " ++ f.message)))
  | none =>
    Act.log .producerInitialized
    pure (.ok ⟨[]⟩)

/-- The greatest size of a record. -/
def maxRecordSize : Nat := 1000000

/-- What a record takes besides its key and payload. -/
def recordOverhead : Nat := 36

/-- The size of a record. -/
def size (record : Outgoing) : Nat :=
  (record.key.map fun key => (octetsOf key).length).getD 0 + record.payload.length + recordOverhead

/-- The greatest number of octets in the name of a topic. -/
def maxTopicLength : Nat := 512

/-- The greatest number of records that wait. -/
def maxWaiting : Nat := 100000

/-- The greatest number of octets in the payloads of the records that wait. -/
def maxWaitingOctets : Nat := 0x4000_0000

/-- Why a record is refused. -/
inductive Refusal where
  /-- The name of its topic is too long. -/
  | topicName
  /-- It is too large by itself. -/
  | size
  /-- Too much would wait. -/
  | full
  deriving DecidableEq

/-- The words for a record that is refused. -/
def Refusal.message : Refusal → String
  | .topicName =>
    "Message production error: InvalidArgument (Local: Invalid argument or configuration)"
  | .size => "Message production error: MessageSizeTooLarge (Broker: Message size too large)"
  | .full => "Message production error: QueueFull (Local: Queue full)"

/-- How many records wait. -/
def records (p : Producer) : Nat := (p.lines.map Line.records).foldr (· + ·) 0

/-- How many octets are in the payloads of the records that wait. -/
def octets (p : Producer) : Nat := (p.lines.map Line.octets).foldr (· + ·) 0

/-- The first reason why a record is refused. -/
def refusal? (p : Producer) (record : Outgoing) : Option Refusal :=
  if maxTopicLength < record.topic.utf8ByteSize then some .topicName
  else if maxRecordSize < size record then some .size
  else if maxWaiting < p.records + 1 ∨ maxWaitingOctets < p.octets + record.payload.length then
    some .full
  else none

/-- Adds a line for a topic that has none. -/
def opened (p : Producer) (topic : String) : Producer :=
  if p.lines.any (·.topic = topic) then p else ⟨p.lines ++ [⟨topic, 0, 0⟩]⟩

/-- Lets a record wait in the line for its topic. -/
def enqueued (p : Producer) (record : Outgoing) : Producer :=
  ⟨p.lines.map fun l =>
    if l.topic = record.topic then
      { l with records := l.records + 1, octets := l.octets + record.payload.length }
    else l⟩

/-- Takes a record that is not refused. One that is refused for another reason than the name of its
topic has a line opened all the same. -/
def produce (record : Outgoing) : Act Producer (Except BrokerError Unit) := fun p =>
  match refusal? p record with
  | none => (.ok (), (p.opened record.topic).enqueued record, [])
  | some refusal =>
    (.error (.enqueue record.topic refusal.message),
      if refusal = .topicName then p else p.opened record.topic, [])

/-- Waits for the records to be acknowledged. -/
def flush : Act Producer (Except BrokerError Unit) :=
  Act.read fun p =>
    if p.records = 0 then .ok ()
    else .error (.flush "Flush error: OperationTimedOut (Local: Timed out)")

/-- How many lines are reported when a producer is discarded: it stays for half a second and reports
one line in each tenth of a second. -/
def maxReports : Nat := 5

/-- Gives up the records that wait. -/
def discard : Act Producer Unit := fun p =>
  let reported := (p.lines.filter (0 < ·.records)).take maxReports
  ((), ⟨[]⟩, reported.flatMap fun l => List.replicate l.records
    (.deliveryFailed "Message production error: PurgeQueue (Local: Purged in queue)" l.topic))

end Producer

end EventPipeline.Offline
