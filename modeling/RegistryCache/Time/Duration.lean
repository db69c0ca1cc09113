import RegistryCache.Time.Binary

/-! # Lengths of time

A `Duration` counts whole seconds in 64 bits and the nanoseconds beyond them.  `Duration.text` is the
form in which refresh jobs report how long they took: milliseconds below a second, one decimal below
a minute, and whole minutes and seconds, with hours where there are any, from there on.
-/

namespace RegistryCache

/-- A length of time: whole seconds, and nanoseconds that do not make another second. -/
structure Duration where
  secs : UInt64
  nanos : Fin 1000000000
  deriving DecidableEq, Repr

namespace Duration

def zero : Duration := ⟨0, 0⟩

def ofSecs (secs : UInt64) : Duration := ⟨secs, 0⟩

/-- So many nanoseconds, of any number. -/
def ofNanos (n : Nat) : Duration :=
  ⟨UInt64.ofNat (n / 1000000000), ⟨n % 1000000000, Nat.mod_lt _ (by decide)⟩⟩

def ofMillis (ms : Nat) : Duration := ofNanos (ms * 1000000)

def inNanos (d : Duration) : Nat := d.secs.toNat * 1000000000 + d.nanos.val

def inMillis (d : Duration) : Nat := d.inNanos / 1000000

/-- So many minutes; a number of seconds beyond 64 bits is held at the largest one. -/
def ofMinutes (minutes : UInt64) : Duration :=
  ofSecs (UInt64.ofNat (min (minutes.toNat * 60) (UInt64.size - 1)))

/-- The length in tenths of a second, as the form with one decimal shows it. -/
def tenths (d : Duration) : Nat :=
  ((Time.Binary.nearest d.nanos.val 1000000000).addWhole d.secs.toNat).tenths

/-- The length as a person reads it. -/
def text (d : Duration) : String :=
  let s := d.secs.toNat
  if s = 0 then s!"{d.inMillis}ms"
  else if s < 60 then s!"{d.tenths / 10}.{d.tenths % 10}s"
  else if s < 3600 then s!"{s / 60}m{s % 60}s"
  else s!"{s / 3600}h{s % 3600 / 60}m{s % 60}s"

end Duration

/-! ## Instants -/

/-- An instant of the clock that drives the cache: milliseconds since its start. -/
abbrev Instant := Nat

/-- A point in calendar time: nanoseconds since the epoch, negative before it. -/
structure Timestamp where
  nanos : Int
  deriving DecidableEq, Repr

namespace Timestamp

/-- The point that lies so many milliseconds after the epoch: the clock starts there. -/
def ofInstant (now : Instant) : Timestamp := ⟨now * 1000000⟩

/-- The point that lies a length of time after the epoch. -/
def afterEpoch (d : Duration) : Timestamp := ⟨d.inNanos⟩

/-- The point that lies a length of time before the epoch. -/
def beforeEpoch (d : Duration) : Timestamp := ⟨-d.inNanos⟩

/-- The time passed since the epoch, unless the point lies before it. -/
def sinceEpoch? (t : Timestamp) : Option Duration :=
  if 0 ≤ t.nanos then some (.ofNanos t.nanos.toNat) else none

/-- The time from one point to a later one, and none if the second is not later. -/
def elapsed (since now : Timestamp) : Duration := .ofNanos (now.nanos - since.nanos).toNat

end Timestamp

end RegistryCache
