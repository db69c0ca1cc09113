import RegistryCache.Time.Duration

/-! # The refresh policy

Three numbers decide how fresh the caches are kept: how often the catalog is read again, how often
all tags are, and up to how many tags a repository is fetched anew whenever it is listed.
`RefreshPolicy.source` is the decision itself, `RefreshPolicy.note` tells a reader about it.
-/

namespace RegistryCache

/-- How fresh the caches are kept.  Intervals are minutes.  An interval of zero means for the catalog
    that it is read once, and for the tags that they are never refreshed in the background. -/
structure RefreshPolicy where
  catalogInterval : UInt64
  tagsInterval : UInt64
  /-- A cached repository with at most so many tags is fetched on every listing; zero fetches none. -/
  onlineMax : UInt64
  deriving DecidableEq, Repr

namespace RefreshPolicy

/-- The policy in force unless something else is asked for. -/
def standard : RefreshPolicy := ⟨10, 60, 100⟩

/-- An interval in minutes as a length of time, where zero stands for none. -/
def interval? (minutes : UInt64) : Option Duration :=
  if 0 < minutes then some (.ofMinutes minutes) else none

/-- The pause between two catalog walks; none means that there is one walk only. -/
def catalogPause? (p : RefreshPolicy) : Option Duration := interval? p.catalogInterval

/-- The pause between two passes over all tags; none means that there is no such pass. -/
def tagsPause? (p : RefreshPolicy) : Option Duration := interval? p.tagsInterval

def background (p : RefreshPolicy) : Bool := 0 < p.tagsInterval

/-! ## Where a listing comes from -/

/-- Where the tags of a repository are taken from when somebody lists them. -/
inductive TagSource where
  /-- From the registry, now. -/
  | online
  /-- From the cache, without asking anybody. -/
  | cached
  /-- From nowhere: nothing is cached, and the background pass is still to come. -/
  | notReady
  deriving DecidableEq, Repr

/-- Whether a cached list of so many tags is fetched anew on every listing. -/
def fetchesOnline (p : RefreshPolicy) (count : Nat) : Bool :=
  0 < p.onlineMax && count ≤ p.onlineMax.toNat

/-- Without background refresh every listing goes to the registry.  With it, a cached list is fetched
    anew while it is small, and served as it is otherwise. -/
def source (p : RefreshPolicy) (cachedCount : Option Nat) : TagSource :=
  if !p.background then .online
  else match cachedCount with
    | some count => if p.fetchesOnline count then .online else .cached
    | none => .notReady

/-- Tells how fresh a list of so many tags is. -/
def note (p : RefreshPolicy) (count : Nat) : String :=
  if p.tagsInterval = 0 then "Tags for this repo are refreshed online when browsing."
  else if p.onlineMax = 0 then
    s!"Tags for this repo are refreshed in the background every {p.tagsInterval} min."
  else if count ≤ p.onlineMax.toNat then
    s!"Tags for this repo are refreshed in the background every {p.tagsInterval} min and online when browsing."
  else
    s!"Tags for this repo are refreshed in the background every {p.tagsInterval} min. Online refresh is disabled (tag count exceeds {p.onlineMax})."

end RefreshPolicy

end RegistryCache
