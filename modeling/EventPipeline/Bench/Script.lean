import EventPipeline.Json.Schema
import EventPipeline.Memory.World

/-! # Scripted handlers and consumers

On a test bench a handler follows a script: its first call takes the first reaction of the script,
and so on, the last one being repeated. Every call is kept with its event. A consumer can follow a
script too, which holds what its polls and commits answer; once its polls are used up it triggers
shutdown.
-/

namespace EventPipeline.Bench

/-- How a scripted handler meets an event. -/
inductive Reaction where
  | succeed
  /-- It triggers shutdown and then succeeds. -/
  | stop
  /-- It triggers shutdown and then fails. -/
  | stopAndFail
  | fail (text : String)
  | failOther (text : String)
  /-- It succeeds if the event's data fits a schema. -/
  | require (schema : Json.Schema)
  /-- It fails on events that have failed fewer times than this. -/
  | untilRetries (n : Nat)
  | panic (text? : Option String)
  /-- It publishes the event's data on a topic and succeeds. -/
  | forward (topic : String) (key : Option String)

/-- The reaction of a handler whose shutdown signal is not that of the run. -/
def Reaction.unheard : Reaction → Reaction
  | .stop => .succeed
  | .stopAndFail => .fail "stopping"
  | reaction => reaction

/-- Whether polls of the memory consumers find records. -/
inductive Gate where
  | opened
  /-- Every poll fails for good with this text. -/
  | failing (text : String)
  deriving DecidableEq

/-- What scripted handlers keep, and what has been arranged for the run. -/
structure State where
  /-- The calls of scripted handlers, in their order. -/
  calls : List (String × Envelope)
  /-- How often each scripted handler was called. -/
  counts : Table Nat Nat
  /-- What flushing the sink answers, if not success. -/
  flushError : Option BrokerError
  gate : Gate

/-- Nothing called, nothing arranged. -/
def State.initial : State := ⟨[], [], none, .opened⟩

/-- The world of a test bench. -/
abbrev World := Memory.World State

/-- The world of a test bench before anything happens. -/
def World.initial (now : Int64) : World := ⟨.empty, false, now, .initial⟩

/-- The sink of a test bench: flushing it fails if that has been arranged. -/
def sink : Sink World :=
  { Memory.World.sink with
    flush := fun _ => Act.read fun w =>
      match w.rest.flushError with
      | some e => .error e
      | none => .ok () }

/-- A scripted handler; its number tells it from others of the same name. -/
structure Script where
  number : Nat
  name : String
  reactions : List Reaction

namespace Script

/-- The reaction to the call with the given number. -/
def reaction (s : Script) (call : Nat) : Reaction :=
  match s.reactions[call]? with
  | some r => r
  | none => s.reactions.getLast?.getD .succeed

/-- Keeps a call and answers how many came before it. -/
def recordCall (s : Script) (e : Envelope) : Act World Nat := fun w =>
  let before := (w.rest.counts.get? s.number).getD 0
  let rest :=
    { w.rest with
      calls := w.rest.calls ++ [(s.name, e)]
      counts := w.rest.counts.set s.number (before + 1) }
  (before, { w with rest }, [])

/-- What a reaction does with an event. -/
def react (p : Publisher World) (e : Envelope) : Reaction → Act World (Except Failure Unit)
  | .succeed => pure (.ok ())
  | .stop => do
    Memory.World.trigger
    pure (.ok ())
  | .stopAndFail => do
    Memory.World.trigger
    pure (.error (.failed "stopping"))
  | .fail text => pure (.error (.failed text))
  | .failOther text => pure (.error (.other text))
  | .require schema =>
    match schema.accept e.data with
    | .ok _ => pure (.ok ())
    | .error m => pure (.error (.invalidData (.mismatch m)))
  | .untilRetries n =>
    if e.retryCount.toNat < n then
      pure (.error (.failed ("attempt " ++ toString e.retryCount.toNat)))
    else pure (.ok ())
  | .panic text? => pure (.error (.panicked text?))
  | .forward topic key => do
    p.send topic e.ns e.data key
    pure (.ok ())

/-- The script as a handler. -/
def toHandler (p : Publisher World) (s : Script) : Handler World where
  name := s.name
  handle e := do
    let call ← s.recordCall e
    react p e (s.reaction call)

end Script

/-- A handler of a test bench. -/
inductive Actor where
  | logging (h : LogHandler)
  | scripted (s : Script)

namespace Actor

/-- The name under which an actor appears. -/
def name : Actor → String
  | .logging _ => LogHandler.name
  | .scripted s => s.name

/-- The actor with a shutdown signal that is not that of the run. -/
def unheard : Actor → Actor
  | .logging h => .logging h
  | .scripted s => .scripted { s with reactions := s.reactions.map Reaction.unheard }

/-- The actor as a handler. -/
def toHandler (p : Publisher World) : Actor → Handler World
  | .logging h => h.toHandler
  | .scripted s => s.toHandler p

end Actor

/-- Escalates an event a number of times, each time as the last left it. -/
def escalateTimes (p : Publisher World) (group topic : String) (key : Option String) :
    Nat → Envelope → Act World (List (Except EscalationError Escalation × Envelope))
  | 0, _ => pure []
  | n + 1, e => do
    let (result, e) ← p.escalate e group topic key
    let others ← escalateTimes p group topic key n e
    pure ((result, e) :: others)

/-! ### Consumers -/

/-- A memory consumer that may be polled a number of times. -/
structure Metered where
  consumer : Memory.Consumer
  left : Nat

/-- Polls a metered consumer. When it has nothing, or has been polled often enough, it triggers
shutdown. -/
def Metered.poll (c : Metered) : Act World (Except BrokerError (Option Delivery) × Metered) := do
  match c.left with
  | 0 =>
    Memory.World.trigger
    pure (.ok none, c)
  | left + 1 =>
    let (answer, consumer) ← Memory.World.onBroker c.consumer.poll
    match answer with
    | .ok none =>
      Memory.World.trigger
      pure (.ok none, ⟨consumer, left⟩)
    | answer => pure (answer, ⟨consumer, left⟩)

/-- The host that opens memory consumers which may be polled `limit` times. -/
def meteredHost (limit : Nat) : Host World Metered where
  connect s := do
    match ← Memory.World.onBroker (Memory.Consumer.connect s) with
    | .error e => pure (.error e)
    | .ok consumer => pure (.ok ⟨consumer, limit⟩)
  poll c _ := c.poll
  commit c d := do
    let (answer, consumer) ← Memory.World.onBroker (c.consumer.commit d)
    pure (answer, { c with consumer })
  close c := Memory.World.onBroker c.consumer.close
  stopping := Memory.World.stopping

/-- What is left of the script of a consumer. -/
structure ScriptedConsumer where
  polls : List (Except BrokerError (Option Delivery))
  commits : List (Except BrokerError Unit)

/-- The host that opens scripted consumers, or refuses to. -/
def scriptedHost {σ : Type} (refusal? : Option BrokerError) (script : ScriptedConsumer) :
    Host (Memory.World σ) ScriptedConsumer where
  connect _ :=
    match refusal? with
    | some e => pure (.error e)
    | none => pure (.ok script)
  poll c _ :=
    match c.polls with
    | answer :: polls => pure (answer, { c with polls })
    | [] => do
      Memory.World.trigger
      pure (.ok none, c)
  commit c _ :=
    match c.commits with
    | answer :: commits => pure (answer, { c with commits })
    | [] => pure (.ok (), c)
  close _ := pure ()
  stopping := Memory.World.stopping

/-- A bound on the steps of a worker that polls at most `polls` times and offers each event to at
most `listeners` listeners. -/
def stepBound (polls listeners : Nat) : Nat := (polls + 2) * (listeners + 8) + 8

/-- The host whose memory consumers find nothing once shutdown is triggered, and fail when the gate
is failing. -/
def gatedHost : Host World Memory.Consumer :=
  { Memory.World.host with
    poll := fun c timeout world =>
      if world.stopping then ((.ok none, c), world, [])
      else
        match world.rest.gate with
        | .failing text => ((.error (.fatal text), c), world, [])
        | .opened => Memory.World.host.poll c timeout world }

end EventPipeline.Bench
