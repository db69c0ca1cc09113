import RegistryCache.Sync.Metadata
import RegistryCache.Json.Basic

/-! # Figures and listings as JSON

How job records, statistics and tag counts are written.  A point in time before the epoch has no
written form.
-/

namespace RegistryCache

open Json (ofString ofNat ofOption record)

/-- A length of time as a record. -/
def Duration.toJson (d : Duration) : Json :=
  record [("secs", ofNat d.secs.toNat), ("nanos", ofNat d.nanos.val)]

/-- A point in time as a record, unless it lies before the epoch. -/
def Timestamp.toJson? (t : Timestamp) : Option Json :=
  t.sinceEpoch?.map fun d =>
    record [("secs_since_epoch", ofNat d.secs.toNat), ("nanos_since_epoch", ofNat d.nanos.val)]

/-- A job's record, unless its run finished before the epoch. -/
def JobInfo.toJson? (info : JobInfo) : Option Json :=
  info.lastRun.toJson?.map fun lastRun =>
    record [("last_run", lastRun), ("duration", info.duration.toJson)]

/-- A repository and its number of tags as a record. -/
def RepositoryCount.toJson (c : RepositoryCount) : Json :=
  record [("repository", ofString c.repository), ("count", ofNat c.count)]

/-- A job that has run, or none. -/
def JobInfo.optionToJson? : Option JobInfo → Option Json
  | some info => info.toJson?
  | none => some .null

/-- The state of the cache in figures as a record, unless a job's record has no written form. -/
def Statistics.toJson? (s : Statistics) : Option Json := do
  let catalogJob ← JobInfo.optionToJson? s.catalogJob
  let tagsJob ← JobInfo.optionToJson? s.tagsJob
  return record [("catalog_ready", .bool s.catalogReady), ("repository_count", ofNat s.repositoryCount),
    ("tag_count", ofNat s.tagCount),
    ("top_repositories", .array (s.topRepositories.map RepositoryCount.toJson)),
    ("catalog_job", catalogJob), ("tags_job", tagsJob)]

end RegistryCache
