import EventPipeline.Offline.Consumer
import EventPipeline.Worker.Step

/-! # Worlds without a broker

A `World` is what a pipeline runs in while no broker can be reached: one producer, as many consumers
as are set up, the shutdown signal and a clock.
-/

namespace EventPipeline.Offline

/-- A client without a broker, with all that surrounds it. -/
structure World where
  connection : Connection
  producer : Producer
  /-- Whether shutdown has been triggered. -/
  stopping : Bool
  /-- The present time in milliseconds since 1970. -/
  now : Int64

namespace World

variable {α : Type}

/-- Does something to the producer of a world. -/
def onProducer (act : Act Producer α) : Act World α := fun w =>
  let (a, producer, log) := act w.producer
  (a, { w with producer }, log)

/-- Triggers shutdown; only the first time is logged. -/
def trigger : Act World Unit := fun w =>
  ((), { w with stopping := true }, if w.stopping then [] else [.shutdownTriggered])

/-- The sink of a world: published records wait. -/
def sink : Sink World where
  produce record := onProducer (Producer.produce record)
  flush _ := onProducer Producer.flush
  clock := World.now

/-- What workers find in a world. -/
def host : Host World Consumer where
  connect s := fun w => Consumer.connect w.connection s w
  poll c _ := pure c.poll
  commit c d := pure (c.commit d, c)
  close c := do
    let _ ← c.close
    pure ()
  stopping := World.stopping

end World

end EventPipeline.Offline
