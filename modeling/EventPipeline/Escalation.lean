import EventPipeline.FailureTopics
import EventPipeline.Publisher

/-! # Moving failed events on

An event on which a handler failed goes to the retry topic with one more failure recorded, or, when
it has failed too often, to the dead-letter topic as it is. `FailureTopics.plan?` decides which; an
event addressed to the retry path itself has no plan. The origin of an event is recorded by its
first failure and stays from then on.
-/

namespace EventPipeline

/-- Where an event that failed as a group's event of a topic goes, and how it reads there. -/
def FailureTopics.plan? (f : FailureTopics) (e : Envelope) (group topic : String) :
    Option (Escalation × Envelope) :=
  if f.isReservedTopic topic || group == f.retryGroup then none
  else if maxFailures ≤ e.retryCount then some (.deadLetter e.retryCount, e)
  else
    let retries := e.retryCount + 1
    some (.retry retries,
      { e with
        retries := some retries
        originTopic := some (e.originTopic.getD topic)
        originGroup := some (e.originGroup.getD group) })

/-- The topic to which an escalation goes. -/
def FailureTopics.topicOf (f : FailureTopics) : Escalation → String
  | .retry _ => f.retryTopic
  | .deadLetter _ => f.deadTopic

namespace Publisher

variable {ω : Type}

/-- The names of the retry path of the publisher's application. -/
def failureTopics (p : Publisher ω) : FailureTopics := .ofApp p.app

/-- Publishes an event on the retry path. -/
def publishFailed (p : Publisher ω) (topic : String) (e : Envelope) (key : Option String) :
    Act ω (Except EscalationError Unit) := do
  match ← p.sendFilled topic e key with
  | .ok () => pure (.ok ())
  | .error error => pure (.error (.publish topic error))

/-- The entry that reports an escalation. -/
def escalationEntry (f : FailureTopics) (topic group : String) : Escalation → LogEntry
  | .retry retries => .retryScheduled topic group retries f.retryTopic
  | .deadLetter retries => .retriesExhausted topic group retries f.deadTopic

/-- Moves on an event that failed as a group's event of a topic. The answer holds the event as it
reads afterwards. -/
def escalate (p : Publisher ω) (e : Envelope) (group topic : String) (key : Option String) :
    Act ω (Except EscalationError Escalation × Envelope) := do
  let f := p.failureTopics
  match f.plan? e group topic with
  | none => pure (.error (.misrouted group topic), e)
  | some (escalation, e) =>
    match ← p.publishFailed (f.topicOf escalation) e key with
    | .error error => pure (.error error, e)
    | .ok () =>
      Act.log (escalationEntry f topic group escalation)
      pure (.ok escalation, e)

/-- Publishes an event that cannot be offered to anyone on the dead-letter topic, as it is. -/
def deadLetter (p : Publisher ω) (e : Envelope) (key : Option String) :
    Act ω (Except EscalationError Unit) := do
  let f := p.failureTopics
  match ← p.publishFailed f.deadTopic e key with
  | .error error => pure (.error error)
  | .ok () =>
    Act.log (.deadLettered e.retryCount f.deadTopic)
    pure (.ok ())

end Publisher

end EventPipeline
