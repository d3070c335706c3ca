import EventPipeline.Act
import EventPipeline.Config.Addresses
import EventPipeline.Config.Basic
import EventPipeline.Table

/-! # Settings of a client

A connection becomes settings of the client that reaches the brokers, each a name with a text. The
client logs in only when a mechanism, a user's name and a password are all given.
-/

namespace EventPipeline.Connection

variable {ω : Type}

/-- How a client logs in. -/
structure Login where
  mechanism : String
  username : String
  password : String
  deriving DecidableEq

/-- How the client logs in, if it does. -/
def login? (c : Connection) : Option Login :=
  match c.mechanism, c.username, c.password with
  | some mechanism, some username, some password => some ⟨mechanism, username, password⟩
  | _, _, _ => none

/-- The name of the protocol between client and brokers. -/
def protocol (c : Connection) : String :=
  match c.login?, c.tls with
  | none, false => "plaintext"
  | none, true => "ssl"
  | some _, false => "sasl_plaintext"
  | some _, true => "sasl_ssl"

/-- The settings of a client of the given brokers; `defaultId` is the name of a client that has been
given none. -/
def settings (c : Connection) (defaultId : String) (brokers : List String) : Table String String :=
  [("bootstrap.servers", Addresses.toText brokers), ("client.id", c.clientId.getD defaultId),
    ("security.protocol", c.protocol)] ++
    match c.login? with
    | none => []
    | some l =>
      [("sasl.mechanism", l.mechanism), ("sasl.username", l.username), ("sasl.password", l.password)]

/-- Logs how a client is secured. -/
def announce (c : Connection) : Act ω Unit := do
  if c.tls then Act.log .tlsEnabled
  match c.login? with
  | none => pure ()
  | some l => Act.log (.saslConfigured l.mechanism)

end EventPipeline.Connection
