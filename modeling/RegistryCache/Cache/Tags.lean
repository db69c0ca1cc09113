import RegistryCache.Registry.Path

/-! # The cached tag lists

For each repository the tags that its last successful fetch returned.  A repository without an entry
has never been fetched, which is not the same as having no tags.  The store is looked at through
`get?`; counts, totals and the list of the largest repositories are computed from its entries.
-/

namespace RegistryCache

/-- A repository and the tags that its last fetch returned. -/
structure TagEntry where
  repository : String
  tags : List String
  deriving DecidableEq, Repr

namespace TagEntry

/-- Replaces the entry of a repository where it stands, or adds one at the end. -/
def put (repository : String) (tags : List String) : List TagEntry → List TagEntry
  | [] => [⟨repository, tags⟩]
  | e :: rest =>
    if e.repository = repository then ⟨repository, tags⟩ :: rest
    else e :: put repository tags rest

/-- Drops every occurrence of a tag if the entry is the repository's. -/
def dropTag (repository tag : String) (e : TagEntry) : TagEntry :=
  if e.repository = repository then { e with tags := e.tags.filter (· ≠ tag) } else e

/-- The repositories after an entry is put: the same ones, or a new one behind them. -/
theorem map_repository_put (repository : String) (tags : List String) (es : List TagEntry) :
    (put repository tags es).map TagEntry.repository =
      if repository ∈ es.map TagEntry.repository then es.map TagEntry.repository
      else es.map TagEntry.repository ++ [repository] := by
  induction es with
  | nil => rfl
  | cons e rest inductionHypothesis =>
    rw [put]
    split
    · rename_i own
      rw [List.map_cons, List.map_cons, own, if_pos List.mem_cons_self]
    · rename_i other
      have member : repository ∈ (e :: rest).map TagEntry.repository ↔
          repository ∈ rest.map TagEntry.repository := by
        rw [List.map_cons, List.mem_cons, or_iff_right (Ne.symm other)]
      rw [List.map_cons, inductionHypothesis]
      by_cases known : repository ∈ rest.map TagEntry.repository
      · rw [if_pos known, if_pos (member.mpr known), List.map_cons]
      · rw [if_neg known, if_neg (mt member.mp known), List.map_cons, List.cons_append]

/-- Dropping a tag keeps the entry's repository. -/
@[simp] theorem repository_dropTag (repository tag : String) (e : TagEntry) :
    (dropTag repository tag e).repository = e.repository := by
  unfold dropTag
  split <;> rfl

end TagEntry

/-- The cached tags of all repositories that were ever fetched, one entry for each. -/
structure TagStore where
  entries : List TagEntry
  distinct : (entries.map TagEntry.repository).Nodup
  deriving DecidableEq, Repr

/-- A repository with the number of its cached tags. -/
structure RepositoryCount where
  repository : String
  count : Nat
  deriving DecidableEq, Repr

namespace TagStore

def empty : TagStore := ⟨[], by simp⟩

/-- The cached tags of a repository, if it was ever fetched. -/
def get? (s : TagStore) (repository : String) : Option (List String) :=
  (s.entries.find? (·.repository = repository)).map TagEntry.tags

/-- The number of cached tags of a repository, if it was ever fetched. -/
def count? (s : TagStore) (repository : String) : Option Nat :=
  (s.get? repository).map List.length

def contains (s : TagStore) (repository : String) : Bool := (s.get? repository).isSome

def size (s : TagStore) : Nat := s.entries.length

/-- Whether a tag stands in the entry of a repository. -/
def lists (s : TagStore) (repository tag : String) : Bool :=
  (s.get? repository).any (·.contains tag)

/-- Makes a fetched list the entry of its repository. -/
def insert (s : TagStore) (repository : String) (tags : List String) : TagStore where
  entries := TagEntry.put repository tags s.entries
  distinct := by
    rw [TagEntry.map_repository_put]
    split
    · exact s.distinct
    · rename_i absent
      refine List.nodup_append.mpr ⟨s.distinct, List.pairwise_singleton _ repository, ?_⟩
      intro old member new added same
      rw [List.mem_singleton.mp added] at same
      exact absent (same ▸ member)

/-- Drops a tag from the entry of a repository, however often it stands there.  No entry appears or
    goes away. -/
def remove (s : TagStore) (repository tag : String) : TagStore where
  entries := s.entries.map (TagEntry.dropTag repository tag)
  distinct := by simpa [Function.comp_def] using s.distinct

/-! ## Aggregates -/

def total (s : TagStore) : Nat := s.entries.foldr (fun e n => e.tags.length + n) 0

/-- The entries as counts. -/
def counts (s : TagStore) : List RepositoryCount :=
  s.entries.map fun e => ⟨e.repository, e.tags.length⟩

/-- The order of the largest repositories: by count, and by name where counts are equal. -/
def largerFirst (a b : RepositoryCount) : Bool :=
  b.count < a.count || (a.count == b.count && a.repository ≤ b.repository)

/-- The repositories with the most cached tags, the largest first, at most `n` of them. -/
def top (s : TagStore) (n : Nat) : List RepositoryCount :=
  (s.counts.mergeSort largerFirst).take n

/-- Adds to the number kept for a path. -/
def addCount (path : String) (amount : Nat) : List RepositoryCount → List RepositoryCount
  | [] => [⟨path, amount⟩]
  | c :: rest =>
    if c.repository = path then ⟨path, c.count + amount⟩ :: rest
    else c :: addCount path amount rest

/-- The entries in the subtree of a path. -/
def subtree (s : TagStore) (root : String) : List TagEntry :=
  s.entries.filter fun e => Path.inSubtree root e.repository

/-- The tag counts of the subtrees below a path, one for each candidate segment that has a cached
    repository.  A candidate counts as often as it is named. -/
def subtreeCounts (s : TagStore) (path : String) (candidates : List String) :
    List RepositoryCount :=
  let path := Path.trimmed path
  candidates.foldl (fun counts candidate =>
    let root := Path.child path candidate
    (s.subtree root).foldl (fun counts e => addCount root e.tags.length counts) counts) []

/-- The number found for a path among counts, zero where there is none. -/
def countAt (counts : List RepositoryCount) (path : String) : Nat :=
  ((counts.find? (·.repository = path)).map RepositoryCount.count).getD 0

end TagStore

end RegistryCache
