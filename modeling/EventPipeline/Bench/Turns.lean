import EventPipeline.Bench.Script
import EventPipeline.Pipeline

/-! # Taking turns

`drain` runs a pipeline on a test bench under one fixed schedule. Each worker in turn does its steps
until it would poll. Then the first worker whose poll finds something proceeds alone until it would
poll again, and the search begins anew with the first worker. When no poll finds anything, the run
is brought to its end. Every step is a `Pipeline.step`, so what holds for all schedules holds here.
-/

namespace EventPipeline.Bench

/-- A pipeline on a test bench. -/
abbrev Line := Pipeline World Memory.Consumer

/-- How a run is brought to its end when nothing is left to do. -/
inductive Ending where
  /-- Shutdown is triggered. -/
  | shutdown
  /-- Every poll fails for good with this text. -/
  | failure (text : String)
  deriving DecidableEq

/-- Whether a worker would poll next. -/
def waits (line : Line) (i : Nat) : Bool :=
  match line.crew[i]? with
  | some (_, ⟨.waiting _, _, _⟩) => true
  | _ => false

/-- The group of a worker. -/
def groupOf? (line : Line) (i : Nat) : Option String := line.crew[i]?.map fun (w, _) => w.group

/-- Lets a worker proceed until it would poll or has ended. -/
def proceed : (fuel : Nat) → Line → Nat → Line
  | 0, line, _ => line
  | fuel + 1, line, i =>
    match line.crew[i]? with
    | none | some (_, ⟨.waiting _, _, _⟩) | some (_, ⟨.ended _, _, _⟩) => line
    | some _ => proceed fuel (line.step gatedHost i).1 i

/-- Whether a step polled and found nothing. -/
def foundNothing (happened : List (Nat × Occurrence)) : Bool :=
  happened.any fun
    | (_, .polled _ (.ok none)) => true
    | _ => false

/-- The turn of a worker that waits: it is torn down if that is arranged for its group, or else
polls and proceeds. Also answers whether there was anything for it to do. -/
def turn (fuel : Nat) (tearDowns : Table String String) (line : Line) (i : Nat) : Line × Bool :=
  match line.world.stopping, (groupOf? line i).bind tearDowns.get? with
  | false, some text => (line.tearDown i text, true)
  | _, _ =>
    let (next, happened) := line.step gatedHost i
    (proceed fuel next i, !foundNothing happened)

/-- Gives the waiting workers their turns until one has something to do. -/
def scan (fuel : Nat) (tearDowns : Table String String) : Line → List Nat → Line × Bool
  | line, [] => (line, false)
  | line, i :: rest =>
    if waits line i then
      match turn fuel tearDowns line i with
      | (line, true) => (line, true)
      | (line, false) => scan fuel tearDowns line rest
    else scan fuel tearDowns line rest

/-- Brings a run to its end. -/
def finish (ending : Ending) (line : Line) : Line :=
  match ending with
  | .shutdown => { line with world := (Memory.World.trigger line.world).2.1 }
  | .failure text =>
    { line with world := { line.world with rest := { line.world.rest with gate := .failing text } } }

/-- Searches for work until all workers have ended; `fuel` bounds the searches and the steps of one
turn. -/
def search (tearDowns : Table String String) (ending : Ending) : (fuel : Nat) → Line → Line
  | 0, line => line
  | fuel + 1, line =>
    if line.ended then line
    else
      match scan fuel tearDowns line (List.range line.crew.length) with
      | (line, true) => search tearDowns ending fuel line
      | (line, false) => search tearDowns ending fuel (finish ending line)

/-- Starts all workers and runs them to their end. -/
def drain (tearDowns : Table String String) (ending : Ending) (fuel : Nat) (line : Line) : Line :=
  search tearDowns ending fuel
    ((List.range line.crew.length).foldl (fun line i => proceed fuel line i) line)

end EventPipeline.Bench
