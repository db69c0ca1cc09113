import RegistryCache.Sync.Metadata

/-! # Fetching tags

The tags of one repository, on their own (`TagFetch`), for somebody who lists them (`TagListing`), or
for all repositories one after the other (`TagPass`).  A fetch that fails leaves the repository's
entry alone.  A pass visits the repositories that the catalog holds when it begins; a stop request is
heeded before each fetch and while one is under way.
-/

namespace RegistryCache

/-! ## One repository -/

/-- The tags of a repository arrive, or fail to.  What arrives replaces the repository's entry. -/
def TagFetch.receive (repository : String) (cache : MetadataCache)
    (reply : Except RegistryError (List String)) : Step (Option (List String)) :=
  match reply with
  | .ok tags =>
    .report { cache with tags := cache.tags.insert repository tags }
      (.ofCache .debug s!"Cached {tags.length} tags for repo {repository}") (some tags)
  | .error e =>
    .report cache (.ofCache .error s!"Error listing tags for repo {repository}: {e.message}") none

/-! ## A listing -/

/-- The tags of a repository as they are shown. -/
structure TagListing where
  tags : List String
  /-- Whether anything usable is known of the repository. -/
  ready : Bool
  deriving DecidableEq, Repr

namespace TagListing

def unready : TagListing := ⟨[], false⟩

/-- What is shown after a fetch: its tags, or nothing if it failed. -/
def ofFetch : Option (List String) → TagListing
  | some tags => ⟨tags, true⟩
  | none => unready

/-- Begins a listing: it goes to the registry, or is answered at once, as the policy says. -/
def begin (cache : MetadataCache) (repository : String) : Step (Progress Unit TagListing) :=
  match cache.policy.source (cache.tags.count? repository) with
  | .online => ⟨cache, [], [.tagList repository], .waiting ()⟩
  | .cached => .pure cache (.done ⟨(cache.tags.get? repository).getD [], true⟩)
  | .notReady => .pure cache (.done unready)

end TagListing

/-! ## All repositories -/

/-- How far a pass over all repositories has come. -/
structure PassTally where
  started : Instant
  /-- The number of repositories in the catalog when the pass began. -/
  total : Nat
  refreshed : Nat
  failed : Nat
  deriving DecidableEq, Repr

/-- A pass that waits for the tags of one repository, with more to visit after it. -/
structure TagPass where
  tally : PassTally
  current : String
  rest : List String
  deriving DecidableEq, Repr

/-- How a pass ended. -/
structure PassOutcome where
  refreshed : Nat
  failed : Nat
  cancelled : Bool
  deriving DecidableEq, Repr

namespace PassTally

/-- The pass was stopped before its end. -/
def cancel (t : PassTally) (cache : MetadataCache) : Step PassOutcome :=
  .report cache (.ofTagsJob .warning
      s!"Pass cancelled after {t.refreshed + t.failed} of {t.total} repositories")
    ⟨t.refreshed, t.failed, true⟩

/-- The pass has visited all repositories, and the job is on record. -/
def complete (t : PassTally) (cache : MetadataCache) (now : Instant) : Step PassOutcome :=
  let info := JobInfo.ofRun t.started now
  .report { cache with tagsJob := some info }
    (.ofTagsJob .info
      s!"Job complete ({info.duration.text}): {t.refreshed} repos refreshed, {t.failed} failed")
    ⟨t.refreshed, t.failed, false⟩

/-- Goes on with the repositories that are left, unless the pass is to stop. -/
def visit (t : PassTally) (cache : MetadataCache) (now : Instant) (stopped : Bool) :
    List String → Step (Progress TagPass PassOutcome)
  | [] => (t.complete cache now).map .done
  | repository :: rest =>
    if stopped then (t.cancel cache).map .done
    else ⟨cache, [], [.tagList repository], .waiting ⟨t, repository, rest⟩⟩

/-- Counts a fetch. -/
def count (t : PassTally) (fetched : Option (List String)) : PassTally :=
  match fetched with
  | some _ => { t with refreshed := t.refreshed + 1 }
  | none => { t with failed := t.failed + 1 }

end PassTally

namespace TagPass

def call (p : TagPass) : Call := .tagList p.current

/-- Begins a pass over the repositories that the catalog holds now. -/
def begin (cache : MetadataCache) (now : Instant) (stopped : Bool) :
    Step (Progress TagPass PassOutcome) :=
  let repositories := cache.catalog.repositories
  ((⟨now, repositories.length, 0, 0⟩ : PassTally).visit cache now stopped repositories).after
    (.ofTagsJob .info "Started caching tags for all repositories...")

/-- The tags that the pass waited for arrive, or fail to. -/
def receive (p : TagPass) (cache : MetadataCache) (now : Instant) (stopped : Bool)
    (reply : Except RegistryError (List String)) : Step (Progress TagPass PassOutcome) :=
  (TagFetch.receive p.current cache reply).andThen fun cache fetched =>
    (p.tally.count fetched).visit cache now stopped p.rest

/-- The pass is stopped while it waits: the fetch under way comes to nothing. -/
def cancel (p : TagPass) (cache : MetadataCache) : Step PassOutcome := p.tally.cancel cache

end TagPass

end RegistryCache
