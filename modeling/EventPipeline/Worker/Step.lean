import EventPipeline.Envelope.Reader
import EventPipeline.Escalation
import EventPipeline.Handler
import EventPipeline.Registry

/-! # One worker, step by step

A worker reads one consumer group. It polls for a message, offers the event in it to the listeners
it is meant for, moves the event on if one of them fails, and commits the message whatever happened
to it. `Worker.step` does the least piece of this that others can come between: one poll, one
handler, one escalation, one commit. Between two steps a worker is in a `Phase`, and what a step did
is a list of `Occurrence` values. So a run of one worker is a repetition of `step`, a pipeline is an
interleaving of the steps of several, and a crash is a run that stops after any step.
-/

namespace EventPipeline

variable {ω κ : Type}

/-- What workers find in a world of type `ω`, with open consumers of type `κ`. -/
structure Host (ω κ : Type) where
  connect : Subscription → Act ω (Except BrokerError κ)
  /-- Waits for a message; answering none means that the time was up. -/
  poll : κ → Duration → Act ω (Except BrokerError (Option Delivery) × κ)
  /-- Commits the offset after a message. -/
  commit : κ → Delivery → Act ω (Except BrokerError Unit × κ)
  close : κ → Act ω Unit
  /-- Whether shutdown has been triggered. -/
  stopping : ω → Bool

/-- The reader of one consumer group. -/
structure Worker (ω : Type) where
  group : String
  topics : List String
  brokers : List String
  registry : Registry (Handler ω)
  publisher : Publisher ω
  settings : Settings
  /-- What it times its pauses with. The limit stays as it is, although time passes in a run. -/
  timer : Timer

namespace Worker

/-- The worker of a registered group, which reads every topic that its listeners take. -/
def business (group : String) (brokers : List String) (registry : Registry (Handler ω))
    (publisher : Publisher ω) (settings : Settings) (timer : Timer) : Worker ω :=
  ⟨group, registry.topicsFor group, brokers, registry, publisher, settings, timer⟩

/-- The worker of the retry topic, which offers events to the listeners that failed on them. -/
def retry (brokers : List String) (registry : Registry (Handler ω)) (publisher : Publisher ω)
    (settings : Settings) (timer : Timer) : Worker ω :=
  let f := publisher.failureTopics
  ⟨f.retryGroup, [f.retryTopic], brokers, registry, publisher, settings, timer⟩

/-- What the worker's consumer is opened with. -/
def subscription (w : Worker ω) : Subscription := ⟨w.brokers, w.group, w.topics⟩

/-- The names of the retry path of the worker's application. -/
def failureTopics (w : Worker ω) : FailureTopics := w.publisher.failureTopics

/-- Whether this is the worker of the retry topic. -/
def isRetry (w : Worker ω) : Bool := w.group == w.failureTopics.retryGroup

end Worker

/-- An event with the group and topic whose listeners it is meant for. -/
structure Routed where
  event : Envelope
  group : String
  topic : String
  deriving DecidableEq

/-- How a worker ended. -/
inductive Exit where
  /-- It was told to stop. -/
  | stopped (stats : Stats)
  | failed (e : WorkerError)
  /-- It was torn down outside of its handlers. -/
  | panicked (text : String)
  deriving DecidableEq

/-- Where a worker stands between two steps. -/
inductive Phase (κ : Type) where
  /-- It has not opened its consumer. -/
  | unopened
  /-- It will look whether it should stop. -/
  | checking (c : κ)
  /-- It will poll. -/
  | waiting (c : κ)
  /-- It has a message to decode. -/
  | received (c : κ) (d : Delivery)
  /-- The first `ran` listeners have had the event. -/
  | offering (c : κ) (d : Delivery) (r : Routed) (ran : Nat)
  /-- A listener failed on the event, which has to be moved on. -/
  | failing (c : κ) (d : Delivery) (r : Routed)
  /-- The event does not say where it came from. -/
  | orphaned (c : κ) (d : Delivery) (e : Envelope)
  /-- The message is done with and will be committed. -/
  | settling (c : κ) (d : Delivery) (outcome : Outcome)
  /-- It will close its consumer. -/
  | leaving (c : κ) (error? : Option WorkerError)
  | ended (exit : Exit)
  deriving DecidableEq

/-- A worker between two steps. -/
structure WorkerState (κ : Type) where
  phase : Phase κ
  stats : Stats
  /-- How many messages in a row had a failing handler. -/
  streak : Nat
  deriving DecidableEq

/-- A worker that has not started. -/
def WorkerState.initial : WorkerState κ := ⟨.unopened, .none, 0⟩

/-- Something a worker did or met. -/
inductive Occurrence where
  | logged (e : LogEntry)
  /-- It asked for a consumer and got one or an error. -/
  | connected (s : Subscription) (error? : Option BrokerError)
  | polled (timeout : Duration) (answer : Except BrokerError (Option Delivery))
  /-- It offered an event to a handler, with this result. -/
  | offered (handler : String) (e : Envelope) (result : Except Failure Unit)
  /-- It handed a record to the sink. -/
  | published (record : Outgoing)
  | settled (d : Delivery) (outcome : Outcome)
  | committed (d : Delivery) (answer : Except BrokerError Unit)
  | paused (pause : Duration)
  | closed

/-- Log entries as occurrences. -/
def logged (log : List LogEntry) : List Occurrence := log.map Occurrence.logged

/-- The entry for a change of stage. -/
def entered (before after : Stage) : Occurrence := .logged (.stageChanged before after)

/-- Whether an octet is white space of the ASCII range. -/
def isBlankOctet (b : UInt8) : Bool :=
  b == 0x20 || b == 0x09 || b == 0x0A || b == 0x0C || b == 0x0D

/-- The payload of a message, unless it has none or only white space. -/
def Delivery.content? (d : Delivery) : Option Octets :=
  d.payload.filter fun payload => !payload.all isBlankOctet

namespace Worker

/-- The group and topic an event is meant for: its recorded origin, or else where the message was
fetched, which on the retry topic is no answer. -/
def route? (w : Worker ω) (d : Delivery) (e : Envelope) : Option (String × String) :=
  match e.origin? with
  | some origin => some origin
  | none => if w.isRetry then none else some (w.group, d.topic)

/-- The listeners an event is meant for, in the order in which they have it. -/
def listenersFor (w : Worker ω) (r : Routed) : List (Listener (Handler ω)) :=
  w.registry.matching r.group r.topic r.event.ns

/-- What a worker leaves behind after a step: its state, the world, and what happened. -/
abbrev Stepped (ω κ : Type) := WorkerState κ × ω × List Occurrence

/-- Opens the consumer. -/
def connect (h : Host ω κ) (w : Worker ω) (s : WorkerState κ) (world : ω) : Stepped ω κ :=
  let (answer, world, log) := h.connect w.subscription world
  match answer with
  | .ok c =>
    ({ s with phase := .checking c }, world,
      .logged .workerStarting :: .connected w.subscription none :: logged log ++
        [entered .init .subscribed, entered .subscribed .polling])
  | .error e =>
    ({ s with phase := .ended (.failed (.consumer w.group e)) }, world,
      .logged .workerStarting :: .connected w.subscription (some e) :: logged log ++
        [.logged (.openFailed e)])

/-- Looks whether shutdown has been triggered. -/
def check (h : Host ω κ) (s : WorkerState κ) (c : κ) (world : ω) : Stepped ω κ :=
  if h.stopping world then
    ({ s with phase := .leaving c none }, world, [.logged .shutdownSeen])
  else ({ s with phase := .waiting c }, world, [])

/-- Polls for a message. -/
def poll (h : Host ω κ) (w : Worker ω) (s : WorkerState κ) (c : κ) (world : ω) : Stepped ω κ :=
  let ((answer, c), world, log) := h.poll c w.settings.pollTimeout world
  let happened := .polled w.settings.pollTimeout answer :: logged log
  match answer with
  | .ok (some d) => ({ s with phase := .received c d }, world, happened)
  | .ok none => ({ s with phase := .checking c }, world, happened)
  | .error e =>
    if e.isFatal then
      ({ s with phase := .leaving c (some (.fatal w.group e)) }, world, happened)
    else ({ s with phase := .checking c }, world, happened ++ [.logged (.pollFailed e)])

/-- Decodes a message and finds out whom its event is meant for. -/
def examine (w : Worker ω) (s : WorkerState κ) (c : κ) (d : Delivery) (world : ω) :
    Stepped ω κ :=
  match d.content? with
  | none =>
    ({ s with phase := .settling c d .empty }, world,
      [.logged (.emptyPayload d.topic d.offset)])
  | some payload =>
    match Envelope.read payload with
    | .error e =>
      ({ s with phase := .settling c d .malformed }, world,
        [.logged (.malformedPayload e d.topic d.offset)])
    | .ok e =>
      match w.route? d e with
      | none =>
        ({ s with phase := .orphaned c d e }, world, [.logged (.originMissing d.topic d.offset)])
      | some (group, topic) =>
        ({ s with phase := .offering c d ⟨e, group, topic⟩ 0 }, world, [])

/-- Offers an event to the next listener, or finds that all have had it. -/
def offer (w : Worker ω) (s : WorkerState κ) (c : κ) (d : Delivery) (r : Routed) (ran : Nat)
    (world : ω) : Stepped ω κ :=
  match (w.listenersFor r)[ran]? with
  | none =>
    if ran = 0 then
      ({ s with phase := .settling c d .unrouted }, world,
        [.logged (.noListener r.group r.topic)])
    else ({ s with phase := .settling c d (.handled ran) }, world, [])
  | some listener =>
    let handler := listener.handler
    let (result, world, log) := handler.handle r.event world
    let happened := .offered handler.name r.event result :: logged log
    match result with
    | .ok () => ({ s with phase := .offering c d r (ran + 1) }, world, happened)
    | .error f =>
      ({ s with phase := .failing c d r }, world,
        happened ++
          [.logged (.handlerFailed handler.name f r.group r.topic r.event.retryCount)])

/-- Moves a failed event on. -/
def escalate (w : Worker ω) (s : WorkerState κ) (c : κ) (d : Delivery) (r : Routed)
    (world : ω) : Stepped ω κ :=
  let f := w.failureTopics
  let attempt :=
    match f.plan? r.event r.group r.topic with
    | none => []
    | some (path, e) => [.published (Publisher.record (f.topicOf path) e d.keyText?)]
  let ((result, _), world, log) :=
    w.publisher.escalate r.event r.group r.topic d.keyText? world
  match result with
  | .ok path =>
    ({ s with phase := .settling c d (.escalated path) }, world, attempt ++ logged log)
  | .error e =>
    ({ s with phase := .settling c d .escalationFailed }, world,
      attempt ++ logged log ++ [.logged (.escalationFailed e)])

/-- Moves an event of unknown origin to the dead-letter topic. -/
def bury (w : Worker ω) (s : WorkerState κ) (c : κ) (d : Delivery) (e : Envelope) (world : ω) :
    Stepped ω κ :=
  let record := Publisher.record w.failureTopics.deadTopic e d.keyText?
  let (result, world, log) := w.publisher.deadLetter e d.keyText? world
  let failed :=
    match result with
    | .ok () => []
    | .error e => [.logged (.deadLetterFailed e)]
  ({ s with phase := .settling c d .orphaned }, world, .published record :: logged log ++ failed)

/-- How often the counts are logged. -/
def progressInterval : Nat := 100

/-- The pause after a message, if there is reason for one. -/
def pause? (w : Worker ω) (outcome : Outcome) (streak : Nat) : Option Duration :=
  let pause := w.settings.backoff streak
  if outcome.backsOff && !pause.isZero then some pause else none

/-- What is logged and waited for after a message, given the counts and the streak that it left. -/
def afterCommit (w : Worker ω) (outcome : Outcome) (stats : Stats) (streak : Nat) :
    List Occurrence :=
  let progress :=
    if stats.total % progressInterval = 0 then [Occurrence.logged (.progress stats)] else []
  let rest :=
    match w.pause? outcome streak with
    | none => []
    | some pause =>
      .logged (.backingOff streak pause) ::
        if w.timer.outlastedBy pause then [] else [.paused pause]
  progress ++ rest

/-- Where a worker stands after a message. A pause that outlasts the clock tears it down. -/
def resume (w : Worker ω) (c : κ) (outcome : Outcome) (streak : Nat) : Phase κ :=
  if (w.pause? outcome streak).any w.timer.outlastedBy then
    .ended (.panicked "overflow when adding duration to instant")
  else .checking c

/-- Counts a message, commits it and pauses if there is reason to. -/
def settle (h : Host ω κ) (w : Worker ω) (s : WorkerState κ) (c : κ) (d : Delivery)
    (outcome : Outcome) (world : ω) : Stepped ω κ :=
  let stats := s.stats.record outcome
  let streak := nextStreak s.streak outcome
  let ((answer, c), world, log) := h.commit c d world
  let happened := .settled d outcome :: .committed d answer :: logged log
  let proceeding (report : LogEntry) : Stepped ω κ :=
    (⟨w.resume c outcome streak, stats, streak⟩, world,
      happened ++ .logged report :: w.afterCommit outcome stats streak)
  match answer with
  | .ok () => proceeding (.offsetCommitted d.topic d.partition d.offset)
  | .error e =>
    if e.isFatal then (⟨.leaving c (some (.fatal w.group e)), stats, streak⟩, world, happened)
    else proceeding (.commitFailed e d.topic d.offset)

/-- Closes the consumer and reports the end. -/
def leave (h : Host ω κ) (s : WorkerState κ) (c : κ) (error? : Option WorkerError) (world : ω) :
    Stepped ω κ :=
  let ((), world, log) := h.close c world
  let (exit, report) :=
    match error? with
    | none => (Exit.stopped s.stats, LogEntry.workerStopped s.stats)
    | some e => (.failed e, .workerFailed e s.stats)
  ({ s with phase := .ended exit }, world,
    entered .polling .shuttingDown :: .closed :: logged log ++
      [entered .shuttingDown .closed, .logged report])

/-- The next step of a worker. A worker that has ended does nothing. -/
def step (h : Host ω κ) (w : Worker ω) (s : WorkerState κ) (world : ω) : Stepped ω κ :=
  match s.phase with
  | .unopened => w.connect h s world
  | .checking c => check h s c world
  | .waiting c => w.poll h s c world
  | .received c d => w.examine s c d world
  | .offering c d r ran => w.offer s c d r ran world
  | .failing c d r => w.escalate s c d r world
  | .orphaned c d e => w.bury s c d e world
  | .settling c d outcome => w.settle h s c d outcome world
  | .leaving c error? => leave h s c error? world
  | .ended _ => (s, world, [])

end Worker

/-- How the worker ended, if it has. -/
def WorkerState.exit? (s : WorkerState κ) : Option Exit :=
  match s.phase with
  | .ended exit => some exit
  | _ => none

namespace Worker

/-- Up to `fuel` steps of a worker, until it ends. -/
def run (h : Host ω κ) (w : Worker ω) : (fuel : Nat) → WorkerState κ → ω → Stepped ω κ
  | 0, s, world => (s, world, [])
  | fuel + 1, s, world =>
    match s.exit? with
    | some _ => (s, world, [])
    | none =>
      let (s, world, happened) := w.step h s world
      let (s, world, later) := run h w fuel s world
      (s, world, happened ++ later)

end Worker

end EventPipeline
