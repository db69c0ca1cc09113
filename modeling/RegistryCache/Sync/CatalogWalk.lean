import RegistryCache.Sync.Metadata

/-! # Reading the catalog

A walk asks for one page after the other, each with the cursor that the page before it named, and
keeps what it gathers to itself.  Only when the last page has arrived does the cache take the walk
over; a page that fails leaves the list as it was.  A failure is fatal only as long as no walk was
ever completed, because then there is nothing to serve.
-/

namespace RegistryCache

/-- A walk over the pages of the catalog that waits for the page at `cursor`. -/
structure CatalogWalk where
  started : Instant
  cursor : Option String
  gathered : List String
  deriving DecidableEq, Repr

/-- How a catalog refresh ended, unless it ended fatally. -/
inductive CatalogRefresh where
  | committed (commit : CatalogCommit)
  /-- The walk failed, and the list of an earlier one is served further. -/
  | keptStale
  deriving DecidableEq, Repr

namespace CatalogWalk

def call (w : CatalogWalk) : Call := .catalogPage w.cursor

/-- How a walk goes on: with another page, or not at all. -/
abbrev Going := Progress CatalogWalk (Except RegistryError CatalogRefresh)

/-- Asks for the page at the walk's cursor. -/
def request (w : CatalogWalk) (cache : MetadataCache) : Step Going :=
  ⟨cache, [], [w.call], .waiting w⟩

/-- The walk begins with the page that has no cursor. -/
def begin (cache : MetadataCache) (now : Instant) : Step Going :=
  (request ⟨now, none, []⟩ cache).after (.ofCatalogJob .info "Started reading catalog...")

/-- The walk failed: nothing is taken over. -/
def fail (cache : MetadataCache) (e : RegistryError) : Step Going :=
  .report cache (.ofCatalogJob .error s!"Error fetching catalog: {e.message}")
    (.done (if cache.catalog.ready then .ok .keptStale
      else .error ⟨.catalogUnavailable, e.message⟩))

/-- The walk has all pages: the cache takes it over, and the job is on record. -/
def complete (cache : MetadataCache) (now started : Instant) (walked : List String) :
    Step Going :=
  let (catalog, commit) := cache.catalog.commit walked
  let info := JobInfo.ofRun started now
  let finished := Notice.ofCatalogJob .info
    s!"Job complete ({info.duration.text}): {catalog.size} repos found"
  { cache := { cache with catalog := catalog, catalogJob := some info }
    notices := match commit with
      | .emptyIgnored _ =>
        [.ofCatalogJob .warning "Catalog looks empty, preserving previous list if any.", finished]
      | .replaced _ => [finished]
    begun := []
    next := .done (.ok (.committed commit)) }

/-- The page that the walk waited for arrives, or fails to. -/
def receive (w : CatalogWalk) (cache : MetadataCache) (now : Instant)
    (reply : Except RegistryError CatalogPage) : Step Going :=
  match reply with
  | .error e => fail cache e
  | .ok page =>
    let gathered := w.gathered ++ page.repositories
    let heard := Notice.ofCatalogJob .debug
      s!"Repo batch received: {page.repositories.length} repositories"
    match nextCursor w.cursor page.next "Catalog" with
    | .error e => (fail cache e).after heard
    | .ok (some cursor) =>
      (request { w with cursor := some cursor, gathered := gathered } cache).after heard
    | .ok none => (complete cache now w.started gathered).after heard

end CatalogWalk

end RegistryCache
