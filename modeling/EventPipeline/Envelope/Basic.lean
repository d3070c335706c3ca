import EventPipeline.Json.Writer
import EventPipeline.Text.Octets

/-! # Event envelopes

An `Envelope` is the document that travels through the pipeline: what the publisher said, and, once
a handler has failed on it, how often it failed and where it was first consumed. Members that the
pipeline does not know stay in `extra`, so that an event that is published again loses nothing.
-/

namespace EventPipeline

/-- An event with its retry history. -/
structure Envelope where
  /-- Publish time in milliseconds since 1970. -/
  ts : Int64
  trace : Option String
  /-- The publishing application. -/
  app : String
  /-- The namespace by which listeners can choose events. -/
  ns : Option String
  data : Json.Value
  /-- How many attempts have failed. -/
  retries : Option UInt32
  originTopic : Option String
  originGroup : Option String
  /-- The other members, in increasing order of their keys. -/
  extra : List (String × Json.Value)
  deriving DecidableEq

namespace Envelope

/-- The envelope of a document without members. -/
def blank : Envelope := ⟨0, none, "", none, .null, none, none, none, []⟩

instance : Inhabited Envelope := ⟨blank⟩

/-- A new event, stamped with the present time. -/
def fresh (now : Int64) (app : String) (ns : Option String) (data : Json.Value) : Envelope :=
  { blank with ts := now, app, ns, data }

/-- How many attempts have failed, none being recorded counting as zero. -/
def retryCount (e : Envelope) : UInt32 := e.retries.getD 0

/-- The group and topic the event was first consumed as, when both are recorded. -/
def origin? (e : Envelope) : Option (String × String) :=
  match e.originGroup, e.originTopic with
  | some group, some topic => some (group, topic)
  | _, _ => none

end Envelope

/-- The members of an envelope that the pipeline knows. -/
inductive Field where
  | ts | trace | app | ns | data | retries | originTopic | originGroup
  deriving DecidableEq, Repr

/-- The key under which a known member is written. -/
def Field.key : Field → String
  | .ts => "ts"
  | .trace => "trace"
  | .app => "app"
  | .ns => "namespace"
  | .data => "data"
  | .retries => "retries"
  | .originTopic => "original_topic"
  | .originGroup => "original_group_id"

/-- All known members, in the order in which they are written. -/
def Field.all : List Field :=
  [.ts, .trace, .app, .ns, .data, .retries, .originTopic, .originGroup]

/-- The known member with a given key; `np` is an older key of the namespace. -/
def Field.ofKey? (key : String) : Option Field :=
  if key = "np" then some .ns else Field.all.find? fun f => f.key == key

namespace Envelope

/-- A text or null. -/
def textOrNull : Option String → Json.Value
  | some s => .string s
  | none => .null

/-- The members in the order in which they are written: the five that are always there, those of
the retry history that are recorded, and the unknown ones. -/
def members (e : Envelope) : List (String × List Char) :=
  [ (Field.ts.key, Json.intChars e.ts.toInt),
    (Field.trace.key, (textOrNull e.trace).chars),
    (Field.app.key, Json.stringChars e.app),
    (Field.ns.key, (textOrNull e.ns).chars),
    (Field.data.key, e.data.chars) ] ++
  (e.retries.toList.map fun n => (Field.retries.key, Nat.toDigits 10 n.toNat)) ++
  (e.originTopic.toList.map fun t => (Field.originTopic.key, Json.stringChars t)) ++
  (e.originGroup.toList.map fun g => (Field.originGroup.key, Json.stringChars g)) ++
  e.extra.map fun (k, v) => (k, v.chars)

/-- The written form of an envelope. -/
def chars (e : Envelope) : List Char :=
  '\x7b' :: [','].intercalate
    (e.members.map fun (k, written) => Json.stringChars k ++ ':' :: written) ++ ['\x7d']

/-- The written form as text. -/
def text (e : Envelope) : String := String.ofList e.chars

/-- The payload that carries an envelope. -/
def payload (e : Envelope) : Octets := encodeChars e.chars

end Envelope

end EventPipeline
