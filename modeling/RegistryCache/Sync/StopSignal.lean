import RegistryCache.Time.Duration

/-! # The stop signal

Loops are stopped through a flag that somebody else holds.  Raising the flag is a stop request, and so
is letting go of it, so that no loop outlives the one who could stop it.  A loop that pauses
(`StopSignal.pause`) sleeps to the end of the pause or wakes at the first instant at which it is asked
to stop.
-/

namespace RegistryCache

/-- The stop flag as a loop sees it. -/
inductive StopSignal where
  | never
  /-- Its value, and whether there is still somebody who holds it. -/
  | watched (value held : Bool)
  deriving DecidableEq, Repr

namespace StopSignal

/-- What the holder of a flag can do. -/
inductive Change where
  | send (value : Bool)
  | drop
  deriving DecidableEq, Repr

/-- Whether the loop is asked to stop. -/
def isStopped : StopSignal → Bool
  | never => false
  | watched value held => value || !held

/-- The flag after its holder acts; nobody acts on a flag that was let go of. -/
def apply : StopSignal → Change → StopSignal
  | watched _ true, .send value => watched value true
  | watched value _, .drop => watched value false
  | signal, _ => signal

/-- How a pause ended. -/
structure Pause where
  stopped : Bool
  finish : Instant
  signal : StopSignal
  schedule : List (Instant × Change)
  deriving DecidableEq, Repr

/-- Pauses until a deadline, or until the first instant before it at which the loop is asked to stop.
    The schedule says what the holder of the flag does and when, in order. -/
def pause (signal : StopSignal) (now deadline : Instant) : List (Instant × Change) → Pause
  | [] => if signal.isStopped then ⟨true, now, signal, []⟩ else ⟨false, deadline, signal, []⟩
  | (due, change) :: rest =>
    if signal.isStopped then ⟨true, now, signal, (due, change) :: rest⟩
    else if due < deadline then (signal.apply change).pause (max now due) deadline rest
    else ⟨false, deadline, signal, (due, change) :: rest⟩

end StopSignal

end RegistryCache
