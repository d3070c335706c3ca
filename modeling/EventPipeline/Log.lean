import EventPipeline.Error
import EventPipeline.Json.Writer
import EventPipeline.Worker.Basic

/-! # The log

What the pipeline reports of itself is a list of `LogEntry` values, each of which names a happening
and holds what it is about. The level, the words and the fields under which an entry is written
follow from it.
-/

namespace EventPipeline

/-- How much an entry matters. -/
inductive Level where
  | error | warn | info | debug
  deriving DecidableEq, Repr

/-- The name of a level. -/
def Level.name : Level → String
  | .error => "ERROR"
  | .warn => "WARN"
  | .info => "INFO"
  | .debug => "DEBUG"

/-- The value of a field of an entry. -/
inductive FieldValue where
  | text (s : String)
  | number (n : Int)
  deriving DecidableEq

/-- Something that happened. -/
inductive LogEntry where
  | workerStarting
  | openFailed (e : BrokerError)
  | stageChanged (before after : Stage)
  | pollFailed (e : BrokerError)
  | emptyPayload (topic : String) (offset : Int)
  | malformedPayload (e : Json.Error) (topic : String) (offset : Int)
  | originMissing (topic : String) (offset : Int)
  | deadLetterFailed (e : EscalationError)
  | noListener (group topic : String)
  | handlerFailed (handler : String) (f : Failure) (group topic : String) (retries : UInt32)
  | escalationFailed (e : EscalationError)
  | retriesExhausted (topic group : String) (retries : UInt32) (deadTopic : String)
  | retryScheduled (topic group : String) (retries : UInt32) (retryTopic : String)
  | deadLettered (retries : UInt32) (deadTopic : String)
  | produced (topic : String) (offset : Int)
  | handedOver (topic : String) (bytes : Nat)
  | publishFailed (topic : String) (e : PublishError)
  | deliveryFailed (reason topic : String)
  | offsetCommitted (topic : String) (partition offset : Int)
  | commitFailed (e : BrokerError) (topic : String) (offset : Int)
  | progress (stats : Stats)
  | backingOff (streak : Nat) (pause : Duration)
  | shutdownTriggered
  | shutdownSeen
  | workerStopped (stats : Stats)
  | workerFailed (e : WorkerError) (stats : Stats)
  | publisherFlushed
  | flushIncomplete (e : BrokerError) (timeout : Duration)
  | publisherInitialized (app : String)
  | publisherMissing (topic : String)
  | eventProcessed (label app : String) (retries : UInt32) (data : Json.Value)
  | configLoading
  | configMissing
  | variableUnset (name : String)
  | configParsing
  | brokersOverridden
  | brokerUnsubstituted (broker : String)
  | configLoaded (app : String) (listeners : Nat)
  | tlsEnabled
  | saslConfigured (mechanism : String)
  | producerInitialized
  | consumerSubscribed (group : String)
  | consumerClosed (group : String)

namespace LogEntry

/-- How much an entry matters. -/
def level : LogEntry → Level
  | .openFailed _ | .originMissing .. | .deadLetterFailed _ | .handlerFailed .. | .escalationFailed _
  | .publishFailed .. | .deliveryFailed .. | .workerFailed .. => .error
  | .pollFailed _ | .emptyPayload .. | .malformedPayload .. | .retriesExhausted ..
  | .deadLettered .. | .commitFailed .. | .flushIncomplete .. | .brokerUnsubstituted _ => .warn
  | .workerStarting | .retryScheduled .. | .progress _ | .shutdownTriggered | .shutdownSeen
  | .workerStopped _ | .publisherFlushed | .publisherInitialized _ | .publisherMissing _
  | .eventProcessed .. | .configLoading | .configMissing | .configLoaded .. | .tlsEnabled
  | .saslConfigured _ | .producerInitialized | .consumerSubscribed _ | .consumerClosed _ => .info
  | .stageChanged .. | .noListener .. | .produced .. | .handedOver .. | .offsetCommitted ..
  | .backingOff .. | .variableUnset _ | .configParsing | .brokersOverridden => .debug

/-- The words of an entry. -/
def message : LogEntry → String
  | .workerStarting => "Starting consumer worker"
  | .openFailed _ => "Failed to open consumer"
  | .stageChanged .. => "Worker state changed"
  | .pollFailed _ => "Poll failed, will retry"
  | .emptyPayload .. => "Empty payload, skipping"
  | .malformedPayload .. => "Malformed payload, skipping"
  | .originMissing .. => "Retry event has no complete origin, moving it to the dead-letter topic"
  | .deadLetterFailed _ => "Failed to dead-letter event, dropping it"
  | .noListener .. => "No listener matched event"
  | .handlerFailed .. => "Handler failed"
  | .escalationFailed _ => "Failed to escalate event, dropping it"
  | .retriesExhausted .. => "Retries exhausted, event moved to dead-letter topic"
  | .retryScheduled .. => "Event scheduled for retry"
  | .deadLettered .. => "Event moved to dead-letter topic"
  | .produced .. => "Produced event"
  | .handedOver .. => "Event handed to broker"
  | .publishFailed .. => "Failed to publish event"
  | .deliveryFailed .. => "Event delivery failed"
  | .offsetCommitted .. => "Offset committed"
  | .commitFailed .. => "Commit failed"
  | .progress _ => "Worker progress"
  | .backingOff .. => "Backing off"
  | .shutdownTriggered => "Shutdown triggered"
  | .shutdownSeen => "Shutdown signal received, stopping worker"
  | .workerStopped _ => "Worker stopped"
  | .workerFailed .. => "Worker stopped on fatal error"
  | .publisherFlushed => "Publisher flushed"
  | .flushIncomplete .. => "Publisher flush incomplete"
  | .publisherInitialized _ => "Publisher initialized"
  | .publisherMissing _ => "Publisher is not initialized yet, event dropped"
  | .eventProcessed label app _ _ => "[" ++ label ++ "] Processed event from " ++ app
  | .configLoading => "Loading configuration"
  | .configMissing => "Config file not found, using defaults"
  | .variableUnset _ => "Environment variable not set, keeping placeholder"
  | .configParsing => "Parsing TOML configuration"
  | .brokersOverridden => "Brokers overridden from environment"
  | .brokerUnsubstituted _ => "Broker address contains unsubstituted environment variable"
  | .configLoaded .. => "Configuration loaded"
  | .tlsEnabled => "Enabling SSL/TLS for Kafka connection"
  | .saslConfigured _ => "Configuring SASL authentication"
  | .producerInitialized => "Kafka producer initialized"
  | .consumerSubscribed _ => "Kafka consumer subscribed"
  | .consumerClosed _ => "Kafka consumer closed"

/-- The fields that give counts. -/
def statsFields (stats : Stats) : List (String × FieldValue) :=
  [("processed", .number stats.processed), ("failed", .number stats.failed),
    ("dropped", .number stats.dropped)]

/-- The fields of an entry. -/
def fields : LogEntry → List (String × FieldValue)
  | .openFailed e | .pollFailed e => [("error", .text e.message)]
  | .stageChanged before after => [("from", .text before.name), ("to", .text after.name)]
  | .emptyPayload topic offset | .originMissing topic offset | .produced topic offset =>
    [("topic", .text topic), ("offset", .number offset)]
  | .malformedPayload e topic offset =>
    [("error", .text e.message), ("topic", .text topic), ("offset", .number offset)]
  | .deadLetterFailed e | .escalationFailed e => [("error", .text e.message)]
  | .noListener group topic => [("group_id", .text group), ("topic", .text topic)]
  | .handlerFailed handler f group topic retries =>
    [("handler", .text handler), ("error", .text f.message), ("group_id", .text group),
      ("topic", .text topic), ("retries", .number retries.toNat)]
  | .retriesExhausted topic group retries deadTopic =>
    [("topic", .text topic), ("group_id", .text group), ("retries", .number retries.toNat),
      ("dead_topic", .text deadTopic)]
  | .retryScheduled topic group retries retryTopic =>
    [("topic", .text topic), ("group_id", .text group), ("retries", .number retries.toNat),
      ("retry_topic", .text retryTopic)]
  | .deadLettered retries deadTopic =>
    [("retries", .number retries.toNat), ("dead_topic", .text deadTopic)]
  | .handedOver topic bytes => [("topic", .text topic), ("bytes", .number bytes)]
  | .publishFailed topic e => [("topic", .text topic), ("error", .text e.message)]
  | .deliveryFailed reason topic => [("error", .text reason), ("topic", .text topic)]
  | .offsetCommitted topic partition offset =>
    [("topic", .text topic), ("partition", .number partition), ("offset", .number offset)]
  | .commitFailed e topic offset =>
    [("error", .text e.message), ("topic", .text topic), ("offset", .number offset)]
  | .progress stats | .workerStopped stats => statsFields stats
  | .workerFailed e stats => ("error", .text e.message) :: statsFields stats
  | .backingOff streak pause =>
    [("consecutive_failures", .number streak), ("pause_ms", .number pause.millis)]
  | .flushIncomplete e timeout =>
    [("error", .text e.message), ("timeout_secs", .number timeout.secs)]
  | .publisherInitialized app => [("app", .text app)]
  | .publisherMissing topic => [("topic", .text topic)]
  | .eventProcessed label app retries data =>
    [("prefix", .text label), ("app", .text app), ("retries", .number retries.toNat),
      ("data", .text data.text)]
  | .variableUnset name => [("var", .text name)]
  | .brokerUnsubstituted broker => [("broker", .text broker)]
  | .configLoaded app listeners => [("app", .text app), ("listeners", .number listeners)]
  | .saslConfigured mechanism => [("sasl_mechanism", .text mechanism)]
  | .consumerSubscribed group | .consumerClosed group => [("group_id", .text group)]
  | .workerStarting | .shutdownTriggered | .shutdownSeen | .publisherFlushed | .configLoading
  | .configMissing | .configParsing | .brokersOverridden | .tlsEnabled | .producerInitialized => []

/-- An entry on one line. -/
def line (e : LogEntry) : String :=
  let shown := e.fields.map fun (name, value) =>
    match value with
    | .text s => " " ++ name ++ "=" ++ s
    | .number n => " " ++ name ++ "=" ++ toString n
  e.level.name ++ " " ++ e.message ++ String.join shown

end LogEntry

end EventPipeline
