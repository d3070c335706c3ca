import EventPipeline.Duration
import EventPipeline.Text.Octets

/-! # What passes between the pipeline and a broker

Records that are published, deliveries that are fetched, the subscription a consumer is opened
with, and the errors a broker answers. Only two kinds of error stop a consumer.
-/

namespace EventPipeline

/-- An error of a broker. -/
inductive BrokerError where
  /-- A poll or commit that may work the next time. -/
  | transient (text : String)
  /-- The client cannot go on. -/
  | fatal (text : String)
  /-- A consumer or producer could not be set up. -/
  | client (text : String)
  /-- A record was refused. -/
  | enqueue (topic reason : String)
  /-- Published records were not acknowledged in time. -/
  | flush (text : String)
  deriving DecidableEq

namespace BrokerError

/-- Whether the consumer that answered this error must stop. -/
def isFatal : BrokerError → Bool
  | .fatal _ | .client _ => true
  | _ => false

/-- The words for an error. -/
def message : BrokerError → String
  | .transient text => "transient broker error: " ++ text
  | .fatal text => "fatal broker error: " ++ text
  | .client text => "failed to create broker client: " ++ text
  | .enqueue topic reason => "failed to enqueue message for topic '" ++ topic ++ "': " ++ reason
  | .flush text => "flush did not complete: " ++ text

end BrokerError

/-- A record handed to a broker. -/
structure Outgoing where
  topic : String
  key : Option String
  payload : Octets
  deriving DecidableEq

/-- A message fetched from a broker. -/
structure Delivery where
  topic : String
  partition : Int
  offset : Int
  key : Option Octets
  payload : Option Octets
  deriving DecidableEq

/-- The key of a message, if it has one and that is UTF-8. -/
def Delivery.keyText? (d : Delivery) : Option String := d.key.bind textOf?

/-- What a consumer is opened with. -/
structure Subscription where
  brokers : List String
  group : String
  topics : List String
  deriving DecidableEq

end EventPipeline
