import EventPipeline.Act
import EventPipeline.Config.Addresses
import EventPipeline.Config.Placeholder
import EventPipeline.Config.Shape
import EventPipeline.Toml.Reader

/-! # Loading a configuration

A configuration comes from a file, if there is one. Placeholders in it are filled in before it is
read as a document, and variables of the environment give the name for an application that has none
and replace the addresses of the brokers. What comes out has no fault.
-/

namespace EventPipeline

/-- What is found under the path of a configuration. -/
inductive Source where
  | missing
  | directory
  | file (content : Octets)

namespace Config

/-- The variable that names the file of the configuration. -/
def pathVariable : String := "EVENTLINE_CONFIG"

/-- The file of the configuration when no variable names one. -/
def defaultPath : String := "config/eventline.toml"

/-- The file of the configuration. -/
def path (env : Environment) : String := (env.text? pathVariable).getD defaultPath

/-- The name of an application that gives none. -/
def defaultApp (env : Environment) : String := (env.text? "APP_NAME").getD "Kafka"

/-- The addresses that the environment gives instead of the configured ones, if any. -/
def overriding? (env : Environment) : Option (List String) :=
  match (env.text? "KAFKA_BOOTSTRAP_SERVERS").map Addresses.ofText with
  | some [] | none => none
  | some brokers => some brokers

/-- The configuration that a text describes. -/
def ofText (env : Environment) (text : String) : Except ConfigError Config :=
  match Toml.read? text with
  | none => .error .notToml
  | some ms =>
    match ofMembers (defaultApp env) ms with
    | .error m => .error (.misshapen m)
    | .ok c => .ok c

/-- Logs the names of variables that are not set. -/
def reportUnset : List String → Act Environment Unit
  | [] => pure ()
  | name :: names => do
    Act.log (.variableUnset name)
    reportUnset names

/-- Logs the addresses that still have a placeholder in them. -/
def reportUnsubstituted : List String → Act Environment Unit
  | [] => pure ()
  | broker :: brokers => do
    if Placeholder.opens broker.toList then Act.log (.brokerUnsubstituted broker)
    reportUnsubstituted brokers

/-- The configuration in a file, before the environment changes it. -/
def parse (source : Source) : Act Environment (Except ConfigError Config) := do
  match source with
  | .missing =>
    Act.log .configMissing
    let app ← Act.read defaultApp
    pure (.ok (standard app))
  | .directory =>
    Act.log .configLoading
    pure (.error (.unreadable .directory))
  | .file content =>
    Act.log .configLoading
    match textOf? content with
    | none => pure (.error (.unreadable .notText))
    | some text =>
      let env ← Act.read id
      reportUnset (Placeholder.unset env text.toList)
      Act.log .configParsing
      pure (ofText env (String.ofList (Placeholder.substitute env text.toList)))

/-- Replaces the addresses of the brokers if the environment says so. -/
def override (c : Config) : Act Environment Config := do
  match ← Act.read overriding? with
  | none => pure c
  | some brokers =>
    Act.log .brokersOverridden
    pure { c with connection := { c.connection with brokers } }

/-- Makes sure that a configuration can be used. -/
def validate (c : Config) : Act Environment (Except ConfigError Unit) := do
  if c.app ≠ "" ∧ c.hasBrokers then reportUnsubstituted c.connection.brokers
  match c.fault? with
  | some f => pure (.error (.invalid f))
  | none => pure (.ok ())

/-- The configuration that a file and the environment make. -/
def load (source : Source) : Act Environment (Except ConfigError Config) := do
  match ← parse source with
  | .error e => pure (.error e)
  | .ok c =>
    let c ← c.override
    match ← c.validate with
    | .error e => pure (.error e)
    | .ok () =>
      Act.log (.configLoaded c.app c.listeners.length)
      pure (.ok c)

/-- The configuration in the file that the environment names. -/
def loadNamed (find : String → Source) : Act Environment (Except ConfigError Config) := do
  let path ← Act.read path
  load (find path)

end Config

end EventPipeline
