import RegistryCache.Registry.Path

/-! # The cached catalog

The list of all repositories, held as the last complete walk left it.  `Catalog.commit` takes over a
walk as a whole: a reader sees the list before it or the list after it.  Browsing follows the paths
(`Catalog.children`).
-/

namespace RegistryCache

/-- The repositories of a registry as far as they are known. -/
structure Catalog where
  repositories : List String
  ready : Bool
  deriving DecidableEq, Repr

/-- What taking over a walk did to the list. -/
inductive CatalogCommit where
  | replaced (count : Nat)
  /-- The walk found nothing, and the list stays as it was. -/
  | emptyIgnored (kept : Nat)
  deriving DecidableEq, Repr

namespace Catalog

def empty : Catalog := ⟨[], false⟩

def size (c : Catalog) : Nat := c.repositories.length

/-- Takes over a completed walk.  An empty one never replaces the list, but makes it ready too. -/
def commit (c : Catalog) (walked : List String) : Catalog × CatalogCommit :=
  if walked.isEmpty then ({ c with ready := true }, .emptyIgnored c.size)
  else (⟨walked, true⟩, .replaced walked.length)

/-- A completed walk always makes the catalog ready. -/
@[simp] theorem commit_ready (c : Catalog) (walked : List String) :
    (c.commit walked).1.ready = true := by
  cases walked <;> rfl

/-! ## Browsing -/

/-- What stands directly below a path. -/
structure Children where
  /-- The next segments, each once, in order. -/
  names : List String
  isRepository : Bool
  deriving DecidableEq, Repr

/-- The names directly below a path, and whether the path is a repository itself.  Slashes at the
    ends of the path do not matter, and the empty path lists the top level. -/
def children (c : Catalog) (path : String) : Children :=
  let path := Path.trimmed path
  { names := ((c.repositories.filterMap (Path.nextSegment? path)).eraseDups).mergeSort (· ≤ ·)
    isRepository := !path.isEmpty && c.repositories.contains path }

end Catalog

end RegistryCache
