import RegistryCache.Sync.CatalogWalk
import RegistryCache.Sync.TagFetch

/-! # The refresh loops

Two loops keep a cache in step with its registry.  The catalog loop reads the catalog, pauses, and
reads it again, or reads it once if the policy sets no interval.  After its first success it starts
the tag loop, if the policy wants one, and that loop passes over all tags again and again.  A stop
request ends both at once; the catalog loop ends last, so whoever waits for it waits for both.

A `Scheduler` is the state of the two loops.  It moves in two ways: by itself, as far as it gets at an
instant without a reply (`settle`), and by the reply that one of the loops waits for
(`receivePage`, `receiveTags`).
-/

namespace RegistryCache

/-- Where the catalog loop stands. -/
inductive CatalogLoop where
  | spawned
  /-- It waits for a page, which arrives at `due`. -/
  | walking (walk : CatalogWalk) (due : Instant)
  | sleeping (wake : Instant)
  /-- It reads nothing any more, but lives as long as the tag loop does. -/
  | lingering
  /-- It was asked to stop and waits for the tag loop to end. -/
  | joining
  /-- It has ended, well or because there was nothing to serve. -/
  | ended (result : Except RegistryError Unit)

/-- Where the tag loop stands. -/
inductive TagLoop where
  | absent
  | spawned
  /-- It waits for the tags of a repository, which arrive at `due`. -/
  | passing (pass : TagPass) (due : Instant)
  | sleeping (wake : Instant)
  | ended
  deriving DecidableEq, Repr

/-- The two loops, and whether they are asked to stop. -/
structure Scheduler where
  stopped : Bool
  catalogLoop : CatalogLoop
  tagLoop : TagLoop

/-- What a loop waits for. -/
inductive Scheduler.Event where
  | wake
  | page (walk : CatalogWalk)
  | tags (pass : TagPass)
  deriving DecidableEq, Repr

namespace CatalogLoop

/-- The result of a loop that has ended. -/
def result? : CatalogLoop → Option (Except RegistryError Unit)
  | ended result => some result
  | _ => none

end CatalogLoop

namespace Scheduler

def start : Scheduler := ⟨false, .spawned, .absent⟩

/-- Asks the loops to stop, or lets go of the flag that would ask them. -/
def stop (s : Scheduler) : Scheduler := { s with stopped := true }

/-! ## The catalog loop -/

/-- The catalog loop is done reading.  It ends at once, or after the tag loop if there is one, for
    which it waits until it is asked to stop. -/
def leave (s : Scheduler) (cache : MetadataCache) : Step Scheduler :=
  match s.tagLoop with
  | .absent =>
    .report cache (.ofCatalogJob .info "Stopped.") { s with catalogLoop := .ended (.ok ()) }
  | _ => .pure cache { s with catalogLoop := if s.stopped then .joining else .lingering }

/-- The tag loop is started, unless it was already or the policy wants none. -/
def startTags (s : Scheduler) (policy : RefreshPolicy) : Scheduler :=
  match s.tagLoop, policy.tagsPause? with
  | .absent, some _ => { s with tagLoop := .spawned }
  | _, _ => s

/-- The catalog loop pauses, unless this was the only refresh. -/
def pauseCatalog (s : Scheduler) (cache : MetadataCache) (now : Instant) : Step Scheduler :=
  match cache.policy.catalogPause? with
  | some pause =>
    if s.stopped then s.leave cache
    else .pure cache { s with catalogLoop := .sleeping (now + pause.inMillis) }
  | none =>
    (s.leave cache).after (.ofCatalogJob .warning
      "Catalog refresh is disabled in the config and will not run anymore.")

/-- A catalog refresh has succeeded. -/
def afterRefresh (s : Scheduler) (cache : MetadataCache) (now : Instant) : Step Scheduler :=
  (s.startTags cache.policy).pauseCatalog cache now

/-- Takes up the way on which a walk goes. -/
def takeWalk (s : Scheduler) (latency : Call → Nat) (cache : MetadataCache) (now : Instant) :
    CatalogWalk.Going → Step Scheduler
  | .waiting walk =>
    .pure cache { s with catalogLoop := .walking walk (now + latency walk.call) }
  | .done (.ok _) => s.afterRefresh cache now
  | .done (.error e) => .pure cache { s with catalogLoop := .ended (.error e) }

/-- Begins a catalog refresh. -/
def beginRefresh (s : Scheduler) (latency : Call → Nat) (cache : MetadataCache) (now : Instant) :
    Step Scheduler :=
  (CatalogWalk.begin cache now).andThen fun cache going => s.takeWalk latency cache now going

/-- The catalog loop runs as far as it gets. -/
def settleCatalog (s : Scheduler) (latency : Call → Nat) (cache : MetadataCache) (now : Instant) :
    Step Scheduler :=
  match s.catalogLoop with
  | .spawned => if s.stopped then s.leave cache else s.beginRefresh latency cache now
  | .walking .. => if s.stopped then s.leave cache else .pure cache s
  | .sleeping wake =>
    if s.stopped then s.leave cache
    else if wake ≤ now then s.beginRefresh latency cache now
    else .pure cache s
  | .lingering => .pure cache (if s.stopped then { s with catalogLoop := .joining } else s)
  | .joining | .ended _ => .pure cache s

/-- The catalog loop ends if it waited for a tag loop that has ended. -/
def settleJoin (s : Scheduler) (cache : MetadataCache) : Step Scheduler :=
  match s.catalogLoop, s.tagLoop with
  | .joining, .ended =>
    .report cache (.ofCatalogJob .info "Stopped.") { s with catalogLoop := .ended (.ok ()) }
  | _, _ => .pure cache s

/-! ## The tag loop -/

/-- A pass is over: the loop ends if it is to stop, and pauses otherwise. -/
def afterPass (s : Scheduler) (cache : MetadataCache) (now : Instant) : Step Scheduler :=
  match cache.policy.tagsPause? with
  | some pause =>
    if s.stopped then
      .report cache (.ofTagsJob .info "Stopped.") { s with tagLoop := .ended }
    else .pure cache { s with tagLoop := .sleeping (now + pause.inMillis) }
  | none => .report cache (.ofTagsJob .info "Stopped.") { s with tagLoop := .ended }

/-- Takes up the way on which a pass goes. -/
def takePass (s : Scheduler) (latency : Call → Nat) (cache : MetadataCache) (now : Instant) :
    Progress TagPass PassOutcome → Step Scheduler
  | .waiting pass => .pure cache { s with tagLoop := .passing pass (now + latency pass.call) }
  | .done _ => s.afterPass cache now

/-- Begins a pass over all tags. -/
def beginPass (s : Scheduler) (latency : Call → Nat) (cache : MetadataCache) (now : Instant) :
    Step Scheduler :=
  (TagPass.begin cache now s.stopped).andThen fun cache going => s.takePass latency cache now going

/-- The tag loop runs as far as it gets. -/
def settleTags (s : Scheduler) (latency : Call → Nat) (cache : MetadataCache) (now : Instant) :
    Step Scheduler :=
  match s.tagLoop with
  | .spawned => s.beginPass latency cache now
  | .passing pass _ =>
    if s.stopped then (pass.cancel cache).andThen fun cache _ => s.afterPass cache now
    else .pure cache s
  | .sleeping wake =>
    if s.stopped then .report cache (.ofTagsJob .info "Stopped.") { s with tagLoop := .ended }
    else if wake ≤ now then s.beginPass latency cache now
    else .pure cache s
  | .absent | .ended => .pure cache s

/-! ## Both loops -/

/-- Both loops run as far as they get at an instant without a reply.  A call begun takes as long as
    `latency` says. -/
def settle (s : Scheduler) (latency : Call → Nat) (cache : MetadataCache) (now : Instant) :
    Step Scheduler :=
  ((s.settleCatalog latency cache now).andThen fun cache s =>
    s.settleTags latency cache now).andThen fun cache s => s.settleJoin cache

/-- The page that the catalog loop waits for arrives, or fails to. -/
def receivePage (s : Scheduler) (walk : CatalogWalk) (latency : Call → Nat)
    (cache : MetadataCache) (now : Instant) (reply : Except RegistryError CatalogPage) :
    Step Scheduler :=
  (walk.receive cache now reply).andThen fun cache going => s.takeWalk latency cache now going

/-- The tags that the tag loop waits for arrive, or fail to. -/
def receiveTags (s : Scheduler) (pass : TagPass) (latency : Call → Nat)
    (cache : MetadataCache) (now : Instant) (reply : Except RegistryError (List String)) :
    Step Scheduler :=
  (pass.receive cache now s.stopped reply).andThen fun cache going =>
    s.takePass latency cache now going

/-- What the catalog loop waits for, and when that comes. -/
def catalogEvent? (s : Scheduler) : Option (Instant × Event) :=
  match s.catalogLoop with
  | .walking walk due => some (due, .page walk)
  | .sleeping wake => some (wake, .wake)
  | _ => none

/-- What the tag loop waits for, and when that comes. -/
def tagEvent? (s : Scheduler) : Option (Instant × Event) :=
  match s.tagLoop with
  | .passing pass due => some (due, .tags pass)
  | .sleeping wake => some (wake, .wake)
  | _ => none

/-- The first of the things that the loops wait for. -/
def nextEvent? (s : Scheduler) : Option (Instant × Event) :=
  match s.catalogEvent?, s.tagEvent? with
  | some (t, e), some (t', e') => if t ≤ t' then some (t, e) else some (t', e')
  | some e, none => some e
  | none, e => e

end Scheduler

end RegistryCache
