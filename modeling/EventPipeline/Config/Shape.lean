import EventPipeline.Config.Basic

/-! # Configurations as tables

How each part of a configuration is written in a document: the names of its fields, and what stands
for those that are missing.
-/

namespace EventPipeline

open Toml (Value)

/-- A list of texts. -/
def Toml.Value.asStrings : Toml.Value → Except Toml.Mismatch (List String) :=
  Value.asList Value.asString

/-- A text, for a field that may be without one. -/
def Toml.Value.asSomeString (v : Toml.Value) : Except Toml.Mismatch (Option String) :=
  v.asString.map some

/-- The fields of the part that names the application. -/
def appFields : List (Toml.Field String) := [.optional "name" Value.asString fun s _ => s]

/-- The fields of a connection. -/
def Connection.fields : List (Toml.Field Connection) :=
  [.optional "brokers" Value.asStrings fun a c => { c with brokers := a },
    .optional "ssl_enabled" Value.asBoolean fun a c => { c with tls := a },
    .optional "sasl_mechanism" Value.asSomeString fun a c => { c with mechanism := a },
    .optional "sasl_username" Value.asSomeString fun a c => { c with username := a },
    .optional "sasl_password" Value.asSomeString fun a c => { c with password := a },
    .optional "client_id" Value.asSomeString fun a c => { c with clientId := a }]

/-- The fields of the timings of workers. -/
def Polling.fields : List (Toml.Field Polling) :=
  [.optional "poll_timeout_secs" Value.asNatural fun a p => { p with pollTimeoutSecs := a },
    .optional "max_backoff_secs" Value.asNatural fun a p => { p with maxBackoffSecs := a },
    .optional "backoff_unit_ms" Value.asNatural fun a p => { p with backoffUnitMs := a }]

/-- The fields of the timings of a publisher. -/
def Producing.fields : List (Toml.Field Producing) :=
  [.optional "flush_timeout_secs" Value.asNatural fun a p => { p with flushTimeoutSecs := a },
    .optional "message_timeout_ms" Value.asNatural fun a p => { p with messageTimeoutMs := a }]

/-- The fields of a listener. -/
def ListenerEntry.fields : List (Toml.Field ListenerEntry) :=
  [.needed "group" Value.asString fun a l => { l with group := a },
    .needed "topics" Value.asStrings fun a l => { l with topics := a },
    .optional "namespaces" (fun v => v.asStrings.map some) fun a l => { l with namespaces := a },
    .optional "handler" Value.asString fun a l => { l with handler := a }]

/-- A listener of which nothing is said yet. -/
def ListenerEntry.blank : ListenerEntry := ⟨"", [], none, "log"⟩

/-- The fields of a configuration whose parts are filled up from `blank`. -/
def Config.fields (blank : Config) : List (Toml.Field Config) :=
  [.optional "app" (Value.asRecord "AppConfig" appFields blank.app)
      fun a c => { c with app := a },
    .optional "kafka" (Value.asRecord "KafkaConfig" Connection.fields blank.connection)
      fun a c => { c with connection := a },
    .optional "worker" (Value.asRecord "PollingConfig" Polling.fields blank.polling)
      fun a c => { c with polling := a },
    .optional "producer" (Value.asRecord "ProducerConfig" Producing.fields blank.producing)
      fun a c => { c with producing := a },
    .optional "listeners"
      (Value.asList (Value.asRecord "ListenerConfig" ListenerEntry.fields ListenerEntry.blank))
      fun a c => { c with listeners := a }]

/-- The configuration that a document describes; `app` is the name for one that gives none. -/
def Config.ofMembers (app : String) (ms : Toml.Members) : Except Toml.Mismatch Config :=
  Toml.takeMembers (fields (standard app)) (standard app) ms

end EventPipeline
