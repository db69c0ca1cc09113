import RegistryCache.Sync.CatalogWalk
import RegistryCache.Sync.TagFetch
import RegistryCache.Sync.Deletion

/-! # Operations on the cache

The five things that can be asked of a cache and its registry, in one type.  An `Operation` begins,
and from then on is an `Activity` that waits for the reply to one call at a time, until it ends with
an `Outcome`.  Because an activity is a value, any number of them can be under way on one cache, and
replies may arrive in any order.
-/

namespace RegistryCache

/-- What can be asked of a cache. -/
inductive Operation where
  | refreshCatalog
  | fetchTags (repository : String)
  /-- List the tags of a repository, from wherever the policy takes them. -/
  | listTags (repository : String)
  /-- Fetch the tags of all repositories; the flag says that the stop request came before. -/
  | refreshTags (stopped : Bool)
  | deleteTag (repository tag : String)
  deriving DecidableEq, Repr

/-- An operation that waits for a reply. -/
inductive Activity where
  | catalogWalk (walk : CatalogWalk)
  | tagFetch (repository : String)
  | tagListing (repository : String)
  | tagPass (pass : TagPass)
  | lookup (repository tag : String)
  | removal (repository tag : String) (descriptor : Descriptor)
  deriving DecidableEq, Repr

/-- How an operation ended. -/
inductive Outcome where
  | catalog (result : Except RegistryError CatalogRefresh)
  | fetched (tags : Option (List String))
  | listing (listing : TagListing)
  | pass (outcome : PassOutcome)
  | deleted (success : Bool)

/-- The call whose reply an activity waits for. -/
abbrev Activity.call : Activity → Call
  | .catalogWalk walk => .catalogPage walk.cursor
  | .tagFetch repository => .tagList repository
  | .tagListing repository => .tagList repository
  | .tagPass pass => .tagList pass.current
  | .lookup repository tag => .lookup repository tag
  | .removal repository _ descriptor => .removal repository descriptor.digest

/-- Begins an operation. -/
def Operation.begin (cache : MetadataCache) (now : Instant) :
    Operation → Step (Progress Activity Outcome)
  | .refreshCatalog => (CatalogWalk.begin cache now).map (.map .catalogWalk .catalog)
  | .fetchTags repository => ⟨cache, [], [.tagList repository], .waiting (.tagFetch repository)⟩
  | .listTags repository =>
    (TagListing.begin cache repository).map (.map (fun _ => .tagListing repository) .listing)
  | .refreshTags stopped => (TagPass.begin cache now stopped).map (.map .tagPass .pass)
  | .deleteTag repository tag =>
    (Deletion.begin repository tag cache).map fun _ => .waiting (.lookup repository tag)

namespace Activity

/-- The reply that an activity waits for arrives.  The flag says that it is to stop. -/
def receive (cache : MetadataCache) (now : Instant) (stopped : Bool) :
    (activity : Activity) → activity.call.Reply → Step (Progress Activity Outcome)
  | .catalogWalk walk, reply => (walk.receive cache now reply).map (.map .catalogWalk .catalog)
  | .tagFetch repository, reply =>
    (TagFetch.receive repository cache reply).map fun tags => .done (.fetched tags)
  | .tagListing repository, reply =>
    (TagFetch.receive repository cache reply).map fun tags => .done (.listing (.ofFetch tags))
  | .tagPass pass, reply => (pass.receive cache now stopped reply).map (.map .tagPass .pass)
  | .lookup repository tag, reply =>
    (Deletion.receiveLookup repository tag cache reply).map (.map (.removal repository tag) .deleted)
  | .removal repository tag descriptor, reply =>
    (Deletion.receiveRemoval repository tag descriptor cache reply).map fun b => .done (.deleted b)

/-- An activity is given up while it waits.  A pass says how far it came; the others leave no trace
    and have no outcome. -/
def cancel (cache : MetadataCache) : Activity → Step (Option Outcome)
  | .tagPass pass => (pass.cancel cache).map fun outcome => some (.pass outcome)
  | _ => .pure cache none

end Activity

end RegistryCache
