import EventPipeline.Broker
import EventPipeline.Json.Error

/-! # What can go wrong in the pipeline

Each stage has its own causes, and wraps those of the stage below it.
-/

namespace EventPipeline

/-- How a handler failed on an event. A failure is no more than what it says: it is assumed that an
error can be shown, and that an error or a payload can be discarded, without tearing anything down. A
payload that panics when it is discarded would take the worker with it. -/
inductive Failure where
  /-- The event's data does not fit the handler's schema. -/
  | invalidData (e : Json.Error)
  | failed (text : String)
  /-- An error of something the handler uses. -/
  | other (text : String)
  /-- The handler was torn down; the payload may be a text, and can be discarded. -/
  | panicked (text? : Option String)
  deriving DecidableEq

/-- What a torn-down handler or worker said. -/
def panicText (text? : Option String) : String := text?.getD "unknown panic"

/-- The words for a handler's failure. -/
def Failure.message : Failure → String
  | .invalidData e => "invalid event data: " ++ e.message
  | .failed text => "handler failed: " ++ text
  | .other text => text
  | .panicked text? => "handler panicked: " ++ panicText text?

/-- Why an event was not published, or a publisher not installed. -/
inductive PublishError where
  | alreadyInitialized
  | broker (e : BrokerError)
  deriving DecidableEq

/-- The words for a publisher's error. -/
def PublishError.message : PublishError → String
  | .alreadyInitialized => "publisher is already initialized"
  | .broker e => e.message

/-- Why a failed event was not moved on. -/
inductive EscalationError where
  /-- The event is addressed to the retry path itself. -/
  | misrouted (group topic : String)
  | publish (topic : String) (e : PublishError)
  deriving DecidableEq

/-- The words for an escalation's error. -/
def EscalationError.message : EscalationError → String
  | .misrouted group topic =>
    "refusing to escalate event routed to '" ++ group ++ "'/'" ++ topic ++ "'"
  | .publish topic e => "failed to publish to '" ++ topic ++ "': " ++ e.message

/-- Why a worker stopped before it was told to. -/
inductive WorkerError where
  /-- Its consumer could not be opened. -/
  | consumer (group : String) (e : BrokerError)
  /-- Its consumer failed for good. -/
  | fatal (group : String) (e : BrokerError)
  deriving DecidableEq

/-- The words for a worker's error. -/
def WorkerError.message : WorkerError → String
  | .consumer group e => "failed to open consumer for group '" ++ group ++ "': " ++ e.message
  | .fatal group e => "consumer for group '" ++ group ++ "' failed: " ++ e.message

end EventPipeline
