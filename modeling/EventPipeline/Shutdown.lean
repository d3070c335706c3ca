import EventPipeline.Act

/-! # Shutdown signals

A signal is triggered once and for all. Several handles can share one signal, and whoever holds a
handle can trigger it, ask for it, or sleep until it is triggered or the time is up.
-/

namespace EventPipeline

/-- Shutdown signals and the handles that share them. -/
structure Signals where
  /-- For each signal, whether it was triggered. -/
  triggered : List Bool
  /-- For each handle, its signal. -/
  handles : List Nat
  deriving DecidableEq

namespace Signals

/-- One signal with one handle. -/
def one : Signals := ⟨[false], [0]⟩

/-- The signal of a handle. -/
def signalOf (s : Signals) (handle : Nat) : Nat := s.handles.getD handle 0

/-- Whether the signal of a handle was triggered. -/
def isTriggered (s : Signals) (handle : Nat) : Bool := s.triggered.getD (s.signalOf handle) false

/-- A new signal with a handle of its own; answers the handle. -/
def create : Act Signals Nat := fun s =>
  (s.handles.length, ⟨s.triggered ++ [false], s.handles ++ [s.triggered.length]⟩, [])

/-- A further handle of a signal; answers the handle. -/
def share (handle : Nat) : Act Signals Nat := fun s =>
  (s.handles.length, { s with handles := s.handles ++ [s.signalOf handle] }, [])

/-- Triggers the signal of a handle; only the first time is logged. -/
def trigger (handle : Nat) : Act Signals Unit := fun s =>
  ((), { s with triggered := s.triggered.set (s.signalOf handle) true },
    if s.isTriggered handle then [] else [.shutdownTriggered])

/-- Sleeps until the signal of a handle is triggered or the time is up, nobody triggering it
meanwhile; answers whether it was triggered. -/
def sleep (handle : Nat) (_span : Duration) : Act Signals Bool :=
  Act.read fun s => s.isTriggered handle

end Signals

end EventPipeline
