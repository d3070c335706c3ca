import EventPipeline.Connection
import EventPipeline.Text.Cut

/-! # Setting clients up

A client takes a text from each of its settings and refuses to be set up when it cannot use one. It
has no encryption, and of the mechanisms of logging in it has only that of plain passwords. A
`SetupFault` says what it could not use.
-/

namespace EventPipeline.Offline

/-- Why a client cannot be set up. -/
inductive SetupFault where
  /-- A setting has a zero character in it. -/
  | zeroCharacter
  /-- This protocol needs encryption. -/
  | encryption (protocol : String)
  /-- What is given as a mechanism of logging in is no name of one. -/
  | mechanismName (given : String) (taken : Option String)
  /-- The time that a record may wait is below zero as the client takes it. -/
  | messageTimeout (given : Nat) (taken : Int)
  | unknownMechanism (name : String)
  /-- The mechanism is known but left out. -/
  | missingMechanism (name : String)
  /-- The user's name or the password is left empty. -/
  | credentials
  /-- A consumer has no group. -/
  | group
  deriving DecidableEq

/-- The greatest number of octets in a reason that the client gives. -/
def maxReasonLength : Nat := 511

/-- The words for a setting that the client does not take. -/
def settingMessage (reason name given : String) : String :=
  "Client config error: " ++ Text.cut maxReasonLength reason ++ " " ++ name ++ " " ++ given

/-- The words for settings that the client takes and then cannot work with. -/
def creationMessage (reason : String) : String :=
  "Client creation error: " ++ Text.cut maxReasonLength reason

/-- The words for a client that cannot be set up. -/
def SetupFault.message : SetupFault → String
  | .zeroCharacter => "FFI nul error"
  | .encryption protocol =>
    settingMessage ("Unsupported value \"" ++ protocol ++ "\" for configuration property " ++
      "\"security.protocol\": OpenSSL not available at build time") "security.protocol" protocol
  | .mechanismName given taken =>
    settingMessage ("Invalid value for configuration property \"sasl.mechanisms\": " ++
      taken.getD "(null)") "sasl.mechanism" given
  | .messageTimeout given taken =>
    settingMessage ("Configuration property \"message.timeout.ms\" value " ++ toString taken ++
      " is outside allowed range 0..2147483647\n") "message.timeout.ms" (toString given)
  | .unknownMechanism name => creationMessage ("Unsupported SASL mechanism: " ++ name)
  | .missingMechanism name =>
    creationMessage ("No provider for SASL mechanism " ++ name ++
      ": recompile librdkafka with libsasl2 or openssl support. Current build options: PLAIN")
  | .credentials => creationMessage "sasl.username and sasl.password must be set"
  | .group => creationMessage "rdkafka consumer queue not available"

/-- Whether a character counts as a blank before the text of a setting. -/
def isSettingBlank (c : Char) : Bool := c = ' ' || (0x09 ≤ c.toNat && c.toNat ≤ 0x0D)

/-- The text that the client takes from a setting: it leaves out the blanks before it, and takes none
from a setting that is empty. -/
def takenText? (given : String) : Option String :=
  if given = "" then none else some (String.ofList (given.toList.dropWhile isSettingBlank))

/-- The number that the client takes from a setting: the signed number in the low 32 bits of the
given one, or of `2 ^ 63 - 1` if that is smaller. -/
def takenNumber (given : Nat) : Int := Int.bmod (min given 0x7FFF_FFFF_FFFF_FFFF) 0x1_0000_0000

/-- Whether a mechanism of logging in is known but left out. -/
def isMissingMechanism (name : String) : Bool :=
  name = "GSSAPI" || name = "OAUTHBEARER" || name.startsWith "SCRAM-SHA-"

/-- What the client cannot use of the way in which it is to log in. -/
def loginFault? (l : Connection.Login) : Option SetupFault :=
  match takenText? l.mechanism with
  | none => some (.mechanismName l.mechanism none)
  | some name =>
    if name.contains ' ' || name.contains ',' then some (.mechanismName l.mechanism (some name))
    else if name = "PLAIN" then
      if l.username = "" ∨ l.password = "" then some .credentials else none
    else if isMissingMechanism name then some (.missingMechanism name)
    else some (.unknownMechanism name)

/-- What the client cannot use of a connection, given texts for other settings too. -/
def connectionFault? (c : Connection) (others : List String) : Option SetupFault :=
  if ((c.settings "" c.brokers).map Prod.snd ++ others).any (·.contains '\x00') then
    some .zeroCharacter
  else if c.tls then some (.encryption c.protocol)
  else c.login?.bind loginFault?

end EventPipeline.Offline
