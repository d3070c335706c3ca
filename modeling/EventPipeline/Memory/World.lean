import EventPipeline.Memory.Broker
import EventPipeline.Worker.Step

/-! # Worlds with a broker in memory

A `World σ` holds a broker in memory, the shutdown signal, a clock, and whatever else of type `σ`
the handlers have between them. Workers, publishers and handlers share it.
-/

namespace EventPipeline.Memory

/-- A broker in memory with all that surrounds it. -/
structure World (σ : Type) where
  broker : Broker
  /-- Whether shutdown has been triggered. -/
  stopping : Bool
  /-- The present time in milliseconds since 1970. -/
  now : Int64
  /-- What the handlers have between them. -/
  rest : σ

namespace World

variable {σ α : Type}

/-- Does something to the broker of a world. -/
def onBroker (act : Act Broker α) : Act (World σ) α := fun w =>
  let (a, broker, log) := act w.broker
  (a, { w with broker }, log)

/-- Does something to what the handlers have. -/
def onRest (act : Act σ α) : Act (World σ) α := fun w =>
  let (a, rest, log) := act w.rest
  (a, { w with rest }, log)

/-- Triggers shutdown; only the first time is logged. -/
def trigger : Act (World σ) Unit := fun w =>
  ((), { w with stopping := true }, if w.stopping then [] else [.shutdownTriggered])

/-- The sink of a world: published records go to the broker at once. -/
def sink : Sink (World σ) where
  produce record := onBroker (Broker.produce record)
  flush _ := pure (.ok ())
  clock := World.now

/-- What workers find in a world. A poll answers at once, whatever its timeout, since no time passes
here. It is assumed that the timeout does not outlast the clock; a longer one would tear the worker
down at its first poll. -/
def host : Host (World σ) Consumer where
  connect s := onBroker (Consumer.connect s)
  poll c _ := onBroker c.poll
  commit c d := onBroker (c.commit d)
  close c := onBroker c.close
  stopping := World.stopping

end World

end EventPipeline.Memory
