import EventPipeline.Offline.Producer
import EventPipeline.Text.Pattern

/-! # A consumer without a broker

A consumer is told once that no broker can be reached, and gets no messages. A topic whose name
begins with a circumflex is a regular expression. A consumer that was closed refuses everything.
-/

namespace EventPipeline.Offline

/-- A consumer. -/
structure Consumer where
  group : String
  closed : Bool
  /-- Whether it will tell that no broker can be reached. -/
  alarmed : Bool
  deriving DecidableEq

/-- Whether a consumer can subscribe to a topic. -/
def isTopic (topic : String) : Bool :=
  topic ≠ "" && (!topic.startsWith "^" || Text.Pattern.isValid topic)

/-- Whether a consumer can subscribe to topics. -/
def areTopics (topics : List String) : Bool :=
  !topics.isEmpty && topics.all isTopic && decide topics.Nodup

namespace Consumer

variable {ω : Type}

/-- What a consumer cannot use of its settings. -/
def fault? (c : Connection) (s : Subscription) : Option SetupFault :=
  (connectionFault? { c with brokers := s.brokers } [s.group]).or
    (if ((takenText? s.group).getD "").isEmpty then some .group else none)

/-- Sets a consumer up. -/
def connect (c : Connection) (s : Subscription) : Act ω (Except BrokerError Consumer) := do
  c.announce
  match fault? c s with
  | some f => pure (.error (.client ("failed to create consumer: " ++ f.message)))
  | none =>
    if !areTopics s.topics then
      pure (.error (.client
        "failed to subscribe: Subscription error: Local: Invalid argument or configuration"))
    else
      Act.log (.consumerSubscribed s.group)
      pure (.ok ⟨s.group, false, Addresses.toText s.brokers ≠ ""⟩)

/-- The error of a consumer that was closed. -/
def closedError (c : Consumer) : BrokerError := .fatal ("consumer for '" ++ c.group ++ "' is closed")

/-- Polls for a message. -/
def poll (c : Consumer) : Except BrokerError (Option Delivery) × Consumer :=
  if c.closed then (.error c.closedError, c)
  else if c.alarmed then
    (.error (.transient
      "Message consumption error: AllBrokersDown (Local: All broker connections are down)"),
      { c with alarmed := false })
  else (.ok none, c)

/-- Commits the offset after a message. -/
def commit (c : Consumer) (d : Delivery) : Except BrokerError Unit :=
  if d.offset + 1 < 0 ∨ 0x8000_0000_0000_0000 ≤ d.offset + 1 then
    .error (.transient
      "Set partition offset error: InvalidArgument (Local: Invalid argument or configuration)")
  else if c.closed then .error c.closedError
  else .ok ()

/-- Closes a consumer that is open. -/
def close (c : Consumer) : Act ω Consumer := do
  if !c.closed then Act.log (.consumerClosed c.group)
  pure { c with closed := true }

end Consumer

end EventPipeline.Offline
