import EventPipeline.Act
import EventPipeline.Envelope.Basic

/-! # Publishing

A publisher stamps data with its application's name and the present time and hands it to a sink. It
does not wait for the broker: `send` never fails, and what goes wrong is logged. `sendFilled` hands
over an event as it is and answers whether the sink took it.
-/

namespace EventPipeline

/-- Where published records go in a world of type `ω`. -/
structure Sink (ω : Type) where
  produce : Outgoing → Act ω (Except BrokerError Unit)
  /-- Waits for the records handed over so far. -/
  flush : Duration → Act ω (Except BrokerError Unit)
  /-- The present time in milliseconds since 1970. -/
  clock : ω → Int64

/-- A source of events of one application. -/
structure Publisher (ω : Type) where
  app : String
  sink : Sink ω

namespace Publisher

variable {ω : Type}

/-- The record that carries an event. -/
def record (topic : String) (e : Envelope) (key : Option String) : Outgoing :=
  ⟨topic, key, e.payload⟩

/-- Publishes an event as it is. -/
def sendFilled (p : Publisher ω) (topic : String) (e : Envelope) (key : Option String) :
    Act ω (Except PublishError Unit) := do
  let record := record topic e key
  match ← p.sink.produce record with
  | .error error => pure (.error (.broker error))
  | .ok () =>
    Act.log (.handedOver topic record.payload.length)
    pure (.ok ())

/-- Publishes data as a new event. -/
def send (p : Publisher ω) (topic : String) (ns : Option String) (data : Json.Value)
    (key : Option String) : Act ω Unit := do
  let now ← Act.read p.sink.clock
  match ← p.sendFilled topic (.fresh now p.app ns data) key with
  | .error error => Act.log (.publishFailed topic error)
  | .ok () => pure ()

/-- Waits for what was published to arrive. -/
def close (p : Publisher ω) (timeout : Duration) : Act ω Unit := do
  match ← p.sink.flush timeout with
  | .ok () => Act.log .publisherFlushed
  | .error error => Act.log (.flushIncomplete error timeout)

end Publisher

/-! ### The publisher of a process -/

/-- Installs the publisher of a process, which can be done once. -/
def installPublisher {ω : Type} (installed : Option (Publisher ω)) (p : Publisher ω) :
    Act ω (Except PublishError (Publisher ω)) := do
  match installed with
  | some _ => pure (.error .alreadyInitialized)
  | none =>
    Act.log (.publisherInitialized p.app)
    pure (.ok p)

/-- Publishes data through the publisher of the process, if one is installed. -/
def sendInstalled {ω : Type} (installed : Option (Publisher ω)) (topic : String) (ns : Option String)
    (data : Json.Value) (key : Option String) : Act ω Unit :=
  match installed with
  | some p => p.send topic ns data key
  | none => Act.log (.publisherMissing topic)

end EventPipeline
