import EventPipeline.Config.Load
import EventPipeline.Environment.File
import EventPipeline.LogFilter
import EventPipeline.Offline.World
import EventPipeline.Pipeline

/-! # The two commands

`publish` publishes one event and `serve` runs a pipeline of logging listeners, both as the
environment and the files of the working directory tell them, and both while no broker can be
reached. What they complain of on the way out is a `Complaint`.
-/

namespace EventPipeline.Command

/-- Why a command did not do its work. -/
inductive Complaint where
  /-- The arguments are not those of the command. -/
  | usage
  /-- The data of the event is no JSON text. -/
  | data (e : Json.Error)
  | config (e : ConfigError)
  | client (e : BrokerError)
  /-- A listener uses a name of the retry path. -/
  | reservedName (name : String)
  /-- A worker ended before it was told to. -/
  | workers

/-- The exit code of a command. -/
def exitCode : Except Complaint Unit → Nat
  | .ok () => 0
  | .error .usage => 2
  | .error _ => 1

/-! ### The words of a complaint -/

/-- How an error of a registration is shown. -/
def showRegistryError : RegistryError → String
  | .emptyGroup => "EmptyGroupId"
  | .noTopics group => "NoTopics(" ++ Text.quoted group ++ ")"
  | .emptyTopic group => "EmptyTopic(" ++ Text.quoted group ++ ")"
  | .reservedName name => "ReservedName(" ++ Text.quoted name ++ ")"

/-- How an error of a configuration is shown. -/
def showConfigError : ConfigError → String
  | .unreadable .directory =>
    "ReadError(Os \x7b code: 21, kind: IsADirectory, message: \"Is a directory\" \x7d)"
  | .unreadable .notText =>
    "ReadError(Error \x7b kind: InvalidData, message: " ++ Text.quoted ReadFault.notText.message ++
      " \x7d)"
  | .notToml => "ParseError"
  | .misshapen m => "ParseError(" ++ Text.quoted m.message ++ ")"
  | .invalid f => "ValidationError(" ++ Text.quoted f.message ++ ")"
  | .listener e => "ListenerError(" ++ showRegistryError e ++ ")"

/-- How an error of a broker is shown. -/
def showBrokerError : BrokerError → String
  | .transient text => "Transient(" ++ Text.quoted text ++ ")"
  | .fatal text => "Fatal(" ++ Text.quoted text ++ ")"
  | .client text => "Client(" ++ Text.quoted text ++ ")"
  | .flush text => "Flush(" ++ Text.quoted text ++ ")"
  | .enqueue topic reason =>
    "Enqueue \x7b topic: " ++ Text.quoted topic ++ ", reason: " ++ Text.quoted reason ++ " \x7d"

/-- The line that tells a complaint. -/
def Complaint.line : Complaint → String
  | .usage => "usage: eventline-publish <topic> <json-data> [namespace] [key]"
  | .data e => "Error: Error(" ++ Text.quoted e.message ++ ")"
  | .config e => "Error: " ++ showConfigError e
  | .client e => "Error: " ++ showBrokerError e
  | .reservedName name => "Error: ReservedName(" ++ Text.quoted name ++ ")"
  | .workers => "Error: " ++ Text.quoted "one or more workers stopped with an error"

/-! ### What both commands do first -/

/-- The circumstances in which a command is started. -/
structure Setting where
  env : Environment
  /-- What is found under a path. -/
  find : String → Source
  /-- The present time in milliseconds since 1970. -/
  now : Int64

/-- What is told before anything is done: that the log filter is ignored. -/
def Setting.warning? (s : Setting) : Option String :=
  (s.env.get? LogFilter.variableName).bind LogFilter.complaint?

/-- The environment with the variables of the file `.env` of the working directory. -/
def Setting.fullEnv (s : Setting) : Environment :=
  match s.find ".env" with
  | .file content => VariableFile.load content s.env
  | _ => s.env

/-- The configuration of a command, with what is logged on the way to it. -/
def Setting.config (s : Setting) : Except Complaint Config × List LogEntry :=
  let (result, _, log) := Config.loadNamed s.find s.fullEnv
  (result.mapError Complaint.config, log)

/-- A world with a new producer. -/
def Setting.client (s : Setting) (stopping : Bool) (c : Config) :
    Except Complaint Offline.World × List LogEntry :=
  let (result, _, log) := Offline.Producer.create c.connection c.producing s
  match result with
  | .ok producer => (.ok ⟨c.connection, producer, stopping, s.now⟩, log)
  | .error e => (.error (.client e), log)

/-- The publisher of a command. -/
def publisher (c : Config) : Publisher Offline.World := ⟨c.app, Offline.World.sink⟩

/-! ### Publishing one event -/

/-- What an event to publish is made of. -/
structure Order where
  topic : String
  ns : Option String
  data : Json.Value
  key : Option String

/-- The event that the arguments of a command describe. -/
def order? : List String → Except Complaint Order
  | topic :: data :: rest =>
    match Json.Value.readText data with
    | .error e => .error (.data e)
    | .ok data => .ok ⟨topic, (rest[0]?).filter (· ≠ ""), data, rest[1]?⟩
  | _ => .error .usage

/-- Publishes an order and gives up what no broker takes. -/
def Order.place (o : Order) (c : Config) : Act Offline.World Unit := do
  let p := publisher c
  Act.log (.publisherInitialized p.app)
  p.send o.topic o.ns o.data o.key
  p.close c.producing.flushTimeout
  Offline.World.onProducer Offline.Producer.discard

/-- Publishes the event that the arguments describe. -/
def publish (s : Setting) (args : List String) : Except Complaint Unit × List LogEntry :=
  match order? args with
  | .error e => (.error e, [])
  | .ok order =>
    match s.config with
    | (.error e, log) => (.error e, log)
    | (.ok c, log) =>
      match s.client false c with
      | (.error e, more) => (.error e, log ++ more)
      | (.ok world, more) => (.ok (), log ++ more ++ (order.place c world).2.2)

/-! ### Running a pipeline -/

/-- The plan of a configuration whose listeners are registered. -/
def plan (c : Config) (registry : Registry LogHandler) : Plan Offline.World :=
  ⟨c.connection.brokers, registry.map LogHandler.toHandler, publisher c, c.polling.settings,
    .standard, c.producing.flushTimeout⟩

/-- The steps after which a worker without a broker has ended, or else goes on polling. -/
def decidingSteps : Nat := 3

/-- The deciding steps of a number of workers, one worker after another. -/
def decidingSchedule (workers : Nat) : List Nat :=
  (List.range workers).flatMap (List.replicate decidingSteps)

/-- What workers logged. -/
def entriesOf (happened : List (Nat × Occurrence)) : List LogEntry :=
  happened.filterMap fun
    | (_, .logged e) => some e
    | _ => none

/-- Runs a pipeline that is told to stop at once, or never. There is no answer when it goes on for
ever. -/
def serve (s : Setting) (stopping : Bool) : Option (Except Complaint Unit) × List LogEntry :=
  match s.config with
  | (.error e, log) => (some (.error e), log)
  | (.ok c, log) =>
    match c.registry with
    | .error e => (some (.error (.config e)), log)
    | .ok registry =>
      match s.client stopping c with
      | (.error e, more) => (some (.error e), log ++ more)
      | (.ok world, more) =>
        let (verdict, _, happened, closing) :=
          (plan c registry).run Offline.World.host (decidingSchedule (registry.size + 1)) world
        let log := log ++ more ++ .publisherInitialized c.app :: entriesOf happened ++ closing
        match verdict with
        | .refused name => (some (.error (.reservedName name)), log)
        | .unfinished => (none, log)
        | .finished report =>
          (some (if hasFailures report then .error .workers else .ok ()), log)

end EventPipeline.Command
