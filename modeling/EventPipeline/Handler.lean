import EventPipeline.Act
import EventPipeline.Envelope.Basic

/-! # Handlers

A handler is what a listener does with an event. It may change its world in any way and answers
whether it succeeded; that it was torn down in the middle is one of the ways to fail. Every call comes
back with such an answer: what a handler panics with can be discarded, as `Failure` says.
-/

namespace EventPipeline

/-- Something done with events in a world of type `ω`. -/
structure Handler (ω : Type) where
  name : String
  /-- What a call does and answers once a panic has been caught and its payload discarded. Payloads
  that cannot be discarded without another panic are left out. -/
  handle : Envelope → Act ω (Except Failure Unit)

/-- A handler that logs each event under a label. -/
structure LogHandler where
  label : String
  deriving DecidableEq

namespace LogHandler

variable {ω : Type}

/-- The handler that is given no label. -/
def standard : LogHandler := ⟨"event"⟩

/-- Logs an event. -/
def handle (h : LogHandler) (e : Envelope) : Act ω (Except Failure Unit) := do
  Act.log (.eventProcessed h.label e.app e.retryCount e.data)
  pure (.ok ())

/-- The name under which logging handlers appear. -/
def name : String := "log"

/-- The logging handler as a handler in any world. -/
def toHandler (h : LogHandler) : Handler ω := ⟨name, h.handle⟩

end LogHandler

end EventPipeline
