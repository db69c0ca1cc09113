import RegistryCache.Cache.Codec
import RegistryCache.Registry.Path
import RegistryCache.Sync.TagFetch

/-! # Results on the screen

What the commands show: figures, lists of what lies below a path, and lists of tags, either for people
or as JSON.  All of it is printed whatever the verbosity.
-/

namespace RegistryCache.Report

open Json (ofString ofNat record)

/-- Items with their numbers under a title. -/
def numbered (title : String) (items : List String) : List String :=
  s!"\n--- {title} ---" ::
    (if items.isEmpty then ["  (No items to display)"]
    else items.zipIdx.map fun (item, i) => s!"  {i + 1}. {item}")

def json (v : Json) : List String := [v.pretty]

/-! ## Figures -/

/-- When a job ran, as seen at a point in time. -/
def job (now : Timestamp) : Option JobInfo → String
  | some info => s!"{(info.age now).text} ago, took {info.duration.text}"
  | none => "never"

/-- The state of the cache in figures. -/
def statistics (now : Timestamp) (s : Statistics) : List String :=
  ["\nRegistry statistics",
    s!"  Catalog ready: {s.catalogReady}",
    s!"  Repositories: {s.repositoryCount}",
    s!"  Tags: {s.tagCount}",
    s!"  Catalog job: {job now s.catalogJob}",
    s!"  Tags job: {job now s.tagsJob}"]
    ++ numbered "Top repositories"
      (s.topRepositories.map fun r => s!"{r.repository} ({r.count} tags)")

/-! ## Paths -/

/-- Something that lies below a path, and how many tags there are in it. -/
structure Entry where
  name : String
  path : String
  tagCount : Nat
  deriving DecidableEq, Repr

/-- The entry as a record. -/
def Entry.toJson (e : Entry) : Json :=
  record [("name", ofString e.name), ("path", ofString e.path), ("tag_count", ofNat e.tagCount)]

/-- The entries of the names below a path. -/
def entries (path : String) (names : List String) (tags : TagStore) : List Entry :=
  let root := Path.trimmed path
  let counts := tags.subtreeCounts path names
  names.map fun name =>
    let full := Path.child root name
    ⟨name, full, TagStore.countAt counts full⟩

/-- What lies below a path, and whether a repository is there. -/
def browse (path : String) (found : List Entry) (isRepository : Bool) : List String :=
  let root := Path.trimmed path
  numbered (if root.isEmpty then "/" else root) (found.map fun e => s!"{e.name} ({e.tagCount} tags)")
    ++ if isRepository then [s!"\n{root} is a repository, use `tags {root}` to list its tags."] else []

/-! ## Tags -/

/-- A listing as a record. -/
def listingJson (l : TagListing) : Json :=
  record [("tags", .array (l.tags.map ofString)), ("ready", .bool l.ready)]

/-- The tags of a repository, and how fresh they are. -/
def tags (repository : String) (l : TagListing) (note : String) : List String :=
  numbered repository l.tags ++ [s!"\n{note}"]

end RegistryCache.Report
