import EventPipeline.Duration

/-! # A worker's settings, stages and counts

The pause after a message grows with the streak of failures, up to a limit. Every message falls into
one of three counts by its `Outcome`.
-/

namespace EventPipeline

/-- How often an event may fail before it is given up. -/
def maxFailures : UInt32 := 3

/-- The timings of a worker. -/
structure Settings where
  /-- How long one poll may wait. -/
  pollTimeout : Duration
  /-- The longest pause after a message. -/
  maxBackoff : Duration
  /-- The pause added by each failure in a row. -/
  backoffUnit : Duration
  deriving DecidableEq

namespace Settings

/-- The timings of a worker that is given none. -/
def standard : Settings := ⟨.ofSecs 5, .ofSecs 10, .ofSecs 1⟩

/-- The pause after a message that ends a streak of `failures` failures. -/
def backoff (s : Settings) (failures : Nat) : Duration :=
  (s.backoffUnit.saturatingMul failures).min s.maxBackoff

end Settings

/-- The stages of a worker's life. -/
inductive Stage where
  | init | subscribed | polling | shuttingDown | closed
  deriving DecidableEq, Repr

/-- The name of a stage. -/
def Stage.name : Stage → String
  | .init => "Init"
  | .subscribed => "Subscribed"
  | .polling => "Polling"
  | .shuttingDown => "ShuttingDown"
  | .closed => "Closed"

/-- Where a failed event was sent. -/
inductive Escalation where
  /-- To the retry topic, with its new count of failures. -/
  | retry (retries : UInt32)
  /-- To the dead-letter topic, with its count of failures. -/
  | deadLetter (retries : UInt32)
  deriving DecidableEq

/-- What became of one message. -/
inductive Outcome where
  /-- All its handlers succeeded. -/
  | handled (handlers : Nat)
  /-- No listener wanted it. -/
  | unrouted
  /-- It had no payload, or a blank one. -/
  | empty
  /-- Its payload was no envelope. -/
  | malformed
  /-- It came on the retry topic without saying where from. -/
  | orphaned
  /-- A handler failed and the event was moved on. -/
  | escalated (path : Escalation)
  /-- A handler failed and the event could not be moved on. -/
  | escalationFailed
  deriving DecidableEq

namespace Outcome

/-- Whether a handler failed. -/
def isFailure : Outcome → Bool
  | .escalated _ | .escalationFailed => true
  | _ => false

/-- Whether the message counts for the pause before the next one. -/
def backsOff : Outcome → Bool
  | .empty | .malformed | .orphaned => false
  | _ => true

end Outcome

/-- How many messages met which end. A count that is kept in 64 bits wraps around after `2 ^ 64`
messages. This is left out: no worker comes to so many. -/
structure Stats where
  /-- Messages that were handled or that nobody wanted. -/
  processed : Nat
  /-- Messages on which a handler failed. -/
  failed : Nat
  /-- Messages that could not be offered to anyone. -/
  dropped : Nat
  deriving DecidableEq

namespace Stats

/-- No messages yet. -/
def none : Stats := ⟨0, 0, 0⟩

/-- The number of messages. -/
def total (s : Stats) : Nat := s.processed + s.failed + s.dropped

/-- The counts with one more message. -/
def record (s : Stats) (outcome : Outcome) : Stats :=
  match outcome with
  | .handled _ | .unrouted => { s with processed := s.processed + 1 }
  | .escalated _ | .escalationFailed => { s with failed := s.failed + 1 }
  | .empty | .malformed | .orphaned => { s with dropped := s.dropped + 1 }

end Stats

/-- The length of a streak of failures after one more message. It stays below `2 ^ 32`. -/
def nextStreak (streak : Nat) (outcome : Outcome) : Nat :=
  if outcome.isFailure then min (streak + 1) 0xFFFF_FFFF
  else if outcome.backsOff then 0
  else streak

end EventPipeline
