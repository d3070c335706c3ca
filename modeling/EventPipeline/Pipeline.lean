import EventPipeline.Worker.Step

/-! # Pipelines

A `Plan` says what a pipeline works on. Its workers are one for each registered group, in increasing
order of the groups, and the worker of the retry topic after them. They share one world, and any of
them may do the next step: a run is a list of indices, and `Pipeline.exec` follows it. What happened
is told with the index of the worker it happened to. When all workers have ended, the publisher is
closed and the report says how each of them ended; `Plan.run` is all of this from its start.
-/

namespace EventPipeline

variable {ω κ : Type}

/-- What a pipeline works on. -/
structure Plan (ω : Type) where
  brokers : List String
  registry : Registry (Handler ω)
  publisher : Publisher ω
  settings : Settings
  /-- What its workers time their pauses with. -/
  timer : Timer
  /-- How long the publisher may wait when it is closed. -/
  flushTimeout : Duration

/-- The workers of a plan, or else the name of the retry path that a listener uses. -/
def Plan.workers (p : Plan ω) : Except String (List (Worker ω)) :=
  match p.registry.reservedCollision? p.publisher.failureTopics with
  | some name => .error name
  | none =>
    let business := p.registry.groups.map fun group =>
      Worker.business group p.brokers p.registry p.publisher p.settings p.timer
    .ok (business ++ [Worker.retry p.brokers p.registry p.publisher p.settings p.timer])

/-- The words for a pipeline that was not started because of a name. -/
def reservedMessage (name : String) : String :=
  "'" ++ name ++ "' is reserved for retry and dead-letter traffic"

/-- Workers in one world. -/
structure Pipeline (ω κ : Type) where
  crew : List (Worker ω × WorkerState κ)
  world : ω

namespace Pipeline

/-- Workers that have not started. -/
def start (workers : List (Worker ω)) (world : ω) : Pipeline ω κ :=
  ⟨workers.map fun w => (w, .initial), world⟩

/-- The next step of the worker with a given index. -/
def step (h : Host ω κ) (p : Pipeline ω κ) (i : Nat) : Pipeline ω κ × List (Nat × Occurrence) :=
  match p.crew[i]? with
  | none => (p, [])
  | some (w, s) =>
    let (s, world, happened) := w.step h s p.world
    (⟨p.crew.set i (w, s), world⟩, happened.map fun o => (i, o))

/-- The steps of the workers with the given indices, one after another. -/
def exec (h : Host ω κ) (p : Pipeline ω κ) : List Nat → Pipeline ω κ × List (Nat × Occurrence)
  | [] => (p, [])
  | i :: schedule =>
    let (p, happened) := p.step h i
    let (p, later) := p.exec h schedule
    (p, happened ++ later)

/-- Tears a worker down outside of its handlers. -/
def tearDown (p : Pipeline ω κ) (i : Nat) (text : String) : Pipeline ω κ :=
  { p with crew := p.crew.modify i fun (w, s) => (w, { s with phase := .ended (.panicked text) }) }

/-- How each worker that has ended did so, in the order of the workers. -/
def report (p : Pipeline ω κ) : List (String × Exit) :=
  p.crew.filterMap fun (w, s) => s.exit?.map fun exit => (w.group, exit)

/-- Whether every worker has ended. -/
def ended (p : Pipeline ω κ) : Bool := p.crew.all fun (_, s) => s.exit?.isSome

end Pipeline

/-- Whether a worker ended for another reason than being told to. -/
def Exit.isFailure : Exit → Bool
  | .stopped _ => false
  | _ => true

/-- Whether a report tells of a failure. -/
def hasFailures (report : List (String × Exit)) : Bool := report.any fun (_, exit) => exit.isFailure

/-- How the worker of a group ended. -/
def exitOf? (report : List (String × Exit)) (group : String) : Option Exit :=
  (report.find? fun (g, _) => g == group).map Prod.snd

/-- What came of a pipeline. -/
inductive Verdict where
  /-- It was not started, because a listener uses this name of the retry path. -/
  | refused (name : String)
  /-- Some worker has not ended. -/
  | unfinished
  /-- All workers ended, as reported. -/
  | finished (report : List (String × Exit))
  deriving DecidableEq

namespace Plan

/-- What came of a pipeline that has got so far. Once all its workers have ended, the publisher is
closed. -/
def conclude (p : Plan ω) (line : Pipeline ω κ) : Verdict × ω × List LogEntry :=
  if line.ended then
    let ((), world, log) := p.publisher.close p.flushTimeout line.world
    (.finished line.report, world, log)
  else (.unfinished, line.world, [])

/-- A run whose workers do the steps of a schedule: what came of it, the world it left behind, what
happened to the workers and what was logged after their end. -/
def run (h : Host ω κ) (p : Plan ω) (schedule : List Nat) (world : ω) :
    Verdict × ω × List (Nat × Occurrence) × List LogEntry :=
  match p.workers with
  | .error name => (.refused name, world, [], [])
  | .ok workers =>
    let (line, happened) := (Pipeline.start workers world).exec h schedule
    let (verdict, world, closing) := p.conclude line
    (verdict, world, happened, closing)

end Plan

end EventPipeline
