import EventPipeline.Error
import EventPipeline.FailureTopics
import EventPipeline.Handler
import EventPipeline.Registry
import EventPipeline.Toml.Shape

/-! # Configurations

What an application can be told from outside: its name, where its brokers are, its timings, and
listeners that log events. `Config.fault?` finds the first setting that cannot be used, and
`Config.registry` registers the listeners that a configuration lists.
-/

namespace EventPipeline

/-- How brokers are reached. -/
structure Connection where
  /-- The addresses of the brokers. -/
  brokers : List String
  /-- Whether the connection is encrypted. -/
  tls : Bool
  mechanism : Option String
  username : Option String
  password : Option String
  clientId : Option String
  deriving DecidableEq

/-- The timings of workers, in whole units. -/
structure Polling where
  pollTimeoutSecs : Nat
  maxBackoffSecs : Nat
  backoffUnitMs : Nat
  deriving DecidableEq

/-- The timings of a publisher, in whole units. -/
structure Producing where
  flushTimeoutSecs : Nat
  messageTimeoutMs : Nat
  deriving DecidableEq

/-- A listener of a configuration. -/
structure ListenerEntry where
  group : String
  topics : List String
  namespaces : Option (List String)
  handler : String
  deriving DecidableEq

/-- The settings of an application. -/
structure Config where
  app : String
  connection : Connection
  polling : Polling
  producing : Producing
  listeners : List ListenerEntry
  deriving DecidableEq

/-- The address of a broker when none is given. -/
def Connection.standard : Connection := ⟨["localhost:9092"], false, none, none, none, none⟩

/-- The timings of workers when none are given. -/
def Polling.standard : Polling := ⟨5, 10, 1000⟩

/-- The timings of a publisher when none are given. -/
def Producing.standard : Producing := ⟨5, 30000⟩

/-- The timings as workers use them. -/
def Polling.settings (p : Polling) : Settings :=
  ⟨.ofSecs p.pollTimeoutSecs, .ofSecs p.maxBackoffSecs, .ofMillis p.backoffUnitMs⟩

/-- How long closing the publisher may take. -/
def Producing.flushTimeout (p : Producing) : Duration := .ofSecs p.flushTimeoutSecs

/-- The label of the handler that a listener names: `log` logs under the standard label, and `log:`
with a text logs under that text. -/
def labelOf? (handler : String) : Option String :=
  match handler.toList with
  | 'l' :: 'o' :: 'g' :: rest =>
    match rest with
    | [] => some LogHandler.standard.label
    | ':' :: c :: cs => some (String.ofList (c :: cs))
    | _ => none
  | _ => none

/-- Why settings cannot be used. -/
inductive ConfigFault where
  | emptyApp
  | noBroker
  | noPollTimeout
  | incompleteListener
  | unknownHandlerOf (group handler : String)
  | unknownHandler (handler : String)
  deriving DecidableEq

/-- The words for settings that cannot be used. -/
def ConfigFault.message : ConfigFault → String
  | .emptyApp => "app.name must not be empty"
  | .noBroker => "kafka.brokers must list at least one address"
  | .noPollTimeout => "worker.poll_timeout_secs must be positive"
  | .incompleteListener => "listeners need a group and at least one topic"
  | .unknownHandlerOf group handler =>
    "listener for group '" ++ group ++ "' has unknown handler '" ++ handler ++ "'"
  | .unknownHandler handler => "unknown handler '" ++ handler ++ "'"

/-- Why a file was not read. -/
inductive ReadFault where
  | directory
  | notText
  deriving DecidableEq

/-- The words for a file that was not read. -/
def ReadFault.message : ReadFault → String
  | .directory => "Is a directory (os error 21)"
  | .notText => "stream did not contain valid UTF-8"

/-- Why there is no configuration, or no registry for one. -/
inductive ConfigError where
  | unreadable (e : ReadFault)
  /-- The file is no document. -/
  | notToml
  /-- The document has another shape. -/
  | misshapen (m : Toml.Mismatch)
  | invalid (f : ConfigFault)
  | listener (e : RegistryError)

/-- The words for a missing configuration. -/
def ConfigError.message : ConfigError → String
  | .unreadable e => "Failed to read config file: " ++ e.message
  | .notToml => "Failed to parse TOML"
  | .misshapen m => "Failed to parse TOML: " ++ m.message
  | .invalid f => "Validation error: " ++ f.message
  | .listener e => "Invalid listener: " ++ e.message

/-- Why a listener cannot be used. -/
def ListenerEntry.fault? (l : ListenerEntry) : Option ConfigFault :=
  if l.group = "" ∨ l.topics = [] then some .incompleteListener
  else if (labelOf? l.handler).isNone then some (.unknownHandlerOf l.group l.handler)
  else none

namespace Config

/-- The settings of an application that is only given a name. -/
def standard (app : String) : Config := ⟨app, .standard, .standard, .standard, []⟩

/-- Whether the brokers are listed as they must be. -/
def hasBrokers (c : Config) : Bool :=
  !c.connection.brokers.isEmpty && !c.connection.brokers.contains ""

/-- The first reason why a configuration cannot be used. -/
def fault? (c : Config) : Option ConfigFault :=
  if c.app = "" then some .emptyApp
  else if !c.hasBrokers then some .noBroker
  else if c.polling.pollTimeoutSecs = 0 then some .noPollTimeout
  else c.listeners.findSome? ListenerEntry.fault?

/-- The names of the application's retry path. -/
def failureTopics (c : Config) : FailureTopics := .ofApp c.app

/-- Registers one listener of a configuration. -/
def register (r : Registry LogHandler) (l : ListenerEntry) :
    Except ConfigError (Registry LogHandler) :=
  match labelOf? l.handler with
  | none => .error (.invalid (.unknownHandler l.handler))
  | some label =>
    match r.register l.group l.topics l.namespaces ⟨label⟩ with
    | .ok r => .ok r
    | .error e => .error (.listener e)

/-- The registry of the listeners of a configuration. -/
def registry (c : Config) : Except ConfigError (Registry LogHandler) :=
  c.listeners.foldlM register (.reserving c.failureTopics)

end Config

end EventPipeline
