import RegistryCache.Time.Duration

/-! # What is known of the refresh jobs

Each job leaves a record of its latest complete run, which the next one overwrites.
-/

namespace RegistryCache

/-- When a job's run finished, and how long it took. -/
structure JobInfo where
  lastRun : Timestamp
  duration : Duration
  deriving DecidableEq, Repr

namespace JobInfo

/-- A run that began at one instant and finishes at another. -/
def ofRun (started now : Instant) : JobInfo := ⟨.ofInstant now, .ofMillis (now - started)⟩

/-- The time since the run finished; none if the clock shows an earlier time. -/
def age (info : JobInfo) (now : Timestamp) : Duration := info.lastRun.elapsed now

end JobInfo

end RegistryCache
