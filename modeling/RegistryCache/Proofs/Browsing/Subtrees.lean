import Mathlib.Algebra.BigOperators.Group.Finset.Basic
import Mathlib.Data.List.Nodup
import RegistryCache.Proofs.TagOrder

/-! # Counts of subtrees

The counts of subtrees are filled by a loop over the names that are asked for, with a loop over the
entries in it, and both add to one table.  The table has one count for each path that is named and has
something cached within it; the count is the number of tags there, as often as the path is named.  So it
is what it should be just when no name with tags within it is given twice, and then only the set of
names matters.  The main statement is `TagStore.subtreeCounts_as_often_as_named`.
-/

namespace RegistryCache

open RegistryCache.Path (Within child trimmed slashes)

namespace TagStore

variable (s : TagStore)

/-! ## The table -/

/-- Adding to a count makes no second one for its path. -/
theorem map_repository_addCount (path : String) (amount : Nat) (counts : List RepositoryCount) :
    (addCount path amount counts).map RepositoryCount.repository =
      if path ∈ counts.map RepositoryCount.repository then counts.map RepositoryCount.repository
      else counts.map RepositoryCount.repository ++ [path] := by
  induction counts with
  | nil => simp [addCount]
  | cons c rest inductionHypothesis =>
    by_cases here : c.repository = path
    · simp [addCount, here]
    · have other : ¬ path = c.repository := fun same => here same.symm
      by_cases later : path ∈ rest.map RepositoryCount.repository
      · simp only [addCount, if_neg here, List.map_cons, inductionHypothesis, if_pos later]
        rw [if_pos (List.mem_cons_of_mem _ later)]
      · simp only [addCount, if_neg here, List.map_cons, inductionHypothesis, if_neg later]
        rw [if_neg (by simpa [other] using later), List.cons_append]

/-- Entries that are added up for one path make a count for it, if there are any. -/
theorem map_repository_foldl_addCount (root : String) (es : List TagEntry)
    (counts : List RepositoryCount) :
    (es.foldl (fun counts e => addCount root e.tags.length counts) counts).map
        RepositoryCount.repository =
      if es = [] ∨ root ∈ counts.map RepositoryCount.repository then
        counts.map RepositoryCount.repository
      else counts.map RepositoryCount.repository ++ [root] := by
  induction es generalizing counts with
  | nil => simp
  | cons e rest inductionHypothesis =>
    rw [List.foldl_cons, inductionHypothesis, map_repository_addCount]
    by_cases known : root ∈ counts.map RepositoryCount.repository
    · simp [known]
    · simp [known]

/-- Where every path has one count, that is the one that is found. -/
theorem countAt_of_mem {counts : List RepositoryCount}
    (distinct : (counts.map RepositoryCount.repository).Nodup) {c : RepositoryCount}
    (member : c ∈ counts) : countAt counts c.repository = c.count := by
  have found : counts.find? (·.repository = c.repository) = some c := by
    obtain ⟨before, after, rfl⟩ := List.append_of_mem member
    rw [List.map_append, List.map_cons, List.nodup_middle, List.nodup_cons] at distinct
    rw [List.find?_eq_some_iff_append]
    refine ⟨by simp, before, after, rfl, ?_⟩
    intro other earlier
    have apart : other.repository ≠ c.repository := by
      intro same
      exact distinct.1 (List.mem_append_left _ (same ▸ List.mem_map_of_mem earlier))
    simpa using apart
  rw [countAt, found]
  rfl

/-! ## What it should hold -/

/-- The number of tags within a path: those of the cached repositories there, each counted once. -/
def tagsWithin (root : String) : Nat :=
  ∑ repository ∈ s.cached with Within root repository, (s.count? repository).getD 0

theorem tagsOf_within (root : String) : s.tagsOf (Within root) = s.tagsWithin root := by
  rw [tagsWithin, Finset.sum_filter, cached, List.sum_toFinset _ s.distinct, List.map_map, tagsOf]
  congr 1
  refine List.map_congr_left ?_
  rintro ⟨repository, tags⟩ member
  have found := (s.mem_entries_iff repository tags).mp member
  simp [count?, found]

theorem subtree_ne_nil_iff (root : String) :
    s.subtree root ≠ [] ↔ ∃ repository ∈ s.cached, Within root repository := by
  rw [subtree, ne_eq, List.filter_eq_nil_iff]
  simp [cached, Path.inSubtree_iff]

/-- A table of the subtrees of some names below a root: it has one count for each path that is named and
    has a cached repository within it. -/
structure ListsSubtrees (root : String) (names : List String) (counts : List RepositoryCount) :
    Prop where
  distinct : (counts.map RepositoryCount.repository).Nodup
  listed : ∀ path, path ∈ counts.map RepositoryCount.repository ↔
    ∃ name ∈ names, path = child root name ∧ ∃ repository ∈ s.cached, Within path repository

/-- The table holds the number of tags within each path. -/
structure CountsSubtrees (root : String) (names : List String) (counts : List RepositoryCount) :
    Prop extends s.ListsSubtrees root names counts where
  counted : ∀ c ∈ counts, c.count = s.tagsWithin c.repository

/-- No name that has tags within it is given twice. -/
def NamedOnce (root : String) (names : List String) : Prop :=
  ∀ name ∈ names, s.tagsWithin (child root name) ≠ 0 → names.count name = 1

/-- Two tables that count the subtrees of the same names have the same counts. -/
theorem CountsSubtrees.mem {s : TagStore} {root : String} {names names' : List String}
    {counts counts' : List RepositoryCount} (table : s.CountsSubtrees root names counts)
    (table' : s.CountsSubtrees root names' counts') (covered : ∀ name ∈ names, name ∈ names')
    {c : RepositoryCount} (member : c ∈ counts) : c ∈ counts' := by
  obtain ⟨name, named, path, within⟩ := (table.listed _).mp (List.mem_map_of_mem member)
  have listed := (table'.listed c.repository).mpr ⟨name, covered name named, path, within⟩
  obtain ⟨c', member', repository⟩ := List.mem_map.mp listed
  have count : c'.count = c.count := by
    rw [table.counted c member, table'.counted c' member', repository]
  cases c
  cases c'
  cases repository
  cases count
  exact member'

/-! ## What it holds -/

theorem subtreeCounts_concat (path : String) (names : List String) (name : String) :
    s.subtreeCounts path (names ++ [name]) =
      (s.subtree (child (trimmed path) name)).foldl
        (fun counts e => addCount (child (trimmed path) name) e.tags.length counts)
        (s.subtreeCounts path names) := by
  simp [subtreeCounts]

/-- One more name adds the count for its path, unless it is there or nothing is cached within. -/
theorem ListsSubtrees.concat {s : TagStore} {root : String} {names : List String}
    {counts : List RepositoryCount} (table : s.ListsSubtrees root names counts) (name : String) :
    s.ListsSubtrees root (names ++ [name])
      ((s.subtree (child root name)).foldl
        (fun counts e => addCount (child root name) e.tags.length counts) counts) := by
  have cached := s.subtree_ne_nil_iff (child root name)
  have paths := map_repository_foldl_addCount (child root name) (s.subtree (child root name)) counts
  have either : ∀ path, (∃ other ∈ names ++ [name], path = child root other ∧
        ∃ repository ∈ s.cached, Within path repository) ↔
      path ∈ counts.map RepositoryCount.repository ∨
        (path = child root name ∧ s.subtree (child root name) ≠ []) := by
    intro path
    rw [table.listed, cached]
    simp only [List.mem_append, List.mem_singleton, or_and_right, exists_or, exists_eq_left]
    refine or_congr Iff.rfl (and_congr_right fun here => ?_)
    rw [here]
  split at paths
  case isTrue known =>
    refine ⟨paths ▸ table.distinct, fun path => ?_⟩
    rw [either, paths]
    refine ⟨.inl, ?_⟩
    rintro (there | ⟨rfl, some⟩)
    · exact there
    · exact known.resolve_left some
  case isFalse new =>
    obtain ⟨some, absent⟩ := not_or.mp new
    refine ⟨?_, fun path => ?_⟩
    · rw [paths]
      exact List.nodup_append_comm.mp (List.nodup_cons.mpr ⟨absent, table.distinct⟩)
    · rw [either, paths, List.mem_append, List.mem_singleton]
      exact or_congr Iff.rfl ⟨fun here => ⟨here, some⟩, And.left⟩

theorem listsSubtrees_subtreeCounts (path : String) (names : List String) :
    s.ListsSubtrees (trimmed path) names (s.subtreeCounts path names) := by
  induction names using List.reverseRecOn with
  | nil => exact ⟨by simp [subtreeCounts], by simp [subtreeCounts]⟩
  | append_singleton names name inductionHypothesis =>
    rw [subtreeCounts_concat]
    exact inductionHypothesis.concat name

/-- Each count is the number of tags within its path, as often as the path is named. -/
theorem count_of_mem_subtreeCounts {path name : String} {names : List String} {n : Nat}
    (member : ⟨child (trimmed path) name, n⟩ ∈ s.subtreeCounts path names) :
    n = names.count name * s.tagsWithin (child (trimmed path) name) := by
  have found := countAt_of_mem (s.listsSubtrees_subtreeCounts path names).distinct member
  have times : names.countP (fun other =>
      decide (child (trimmed path) other = child (trimmed path) name)) = names.count name := by
    rw [List.count]
    refine List.countP_congr fun other _ => ?_
    simp only [decide_eq_true_eq, beq_iff_eq]
    exact ⟨Path.child_injective, fun same => same ▸ rfl⟩
  calc n = countAt (s.subtreeCounts path names) (child (trimmed path) name) := found.symm
    _ = names.count name * s.tagsWithin (child (trimmed path) name) := by
      rw [countAt_subtreeCounts, times, tagsOf_within]

theorem countsSubtrees_iff (path : String) (names : List String) :
    s.CountsSubtrees (trimmed path) names (s.subtreeCounts path names) ↔
      s.NamedOnce (trimmed path) names := by
  have table := s.listsSubtrees_subtreeCounts path names
  constructor
  · intro counts name named tagged
    -- a name with tags within it is listed, and its count is right
    have within : ∃ repository ∈ s.cached, Within (child (trimmed path) name) repository := by
      obtain ⟨repository, member, -⟩ := Finset.exists_ne_zero_of_sum_ne_zero tagged
      exact ⟨repository, (Finset.mem_filter.mp member).1, (Finset.mem_filter.mp member).2⟩
    obtain ⟨⟨root, n⟩, member, rfl⟩ := List.mem_map.mp ((table.listed _).mpr ⟨name, named, rfl, within⟩)
    have often := s.count_of_mem_subtreeCounts member
    have right := counts.counted _ member
    dsimp only at right
    rw [right] at often
    exact (Nat.eq_of_mul_eq_mul_right (Nat.pos_of_ne_zero tagged) (by rwa [Nat.one_mul])).symm
  · intro once
    refine ⟨table, ?_⟩
    rintro ⟨root, n⟩ member
    obtain ⟨name, named, rfl, -⟩ := (table.listed root).mp (List.mem_map_of_mem member)
    rw [s.count_of_mem_subtreeCounts member]
    dsimp only
    by_cases tagged : s.tagsWithin (child (trimmed path) name) = 0
    · rw [tagged, Nat.mul_zero]
    · rw [once name named tagged, Nat.one_mul]

/-- The counts of the subtrees of any names, in any order and any number of times, below a path with any
    slashes at its ends.  There is one for each path that is named and has a cached repository within it,
    with or without tags, and none else; it is the number of tags within, as often as the path is named.
    So the counts are the numbers of tags just when no name with tags within it is given twice, and then
    they depend on what is cached and on the set of names alone. -/
theorem subtreeCounts_as_often_as_named (path : String) (names : List String) :
    s.ListsSubtrees (trimmed path) names (s.subtreeCounts path names) ∧
    (∀ name n, ⟨child (trimmed path) name, n⟩ ∈ s.subtreeCounts path names →
      n = names.count name * s.tagsWithin (child (trimmed path) name)) ∧
    (s.CountsSubtrees (trimmed path) names (s.subtreeCounts path names) ↔
      s.NamedOnce (trimmed path) names) ∧
    (∀ before after, s.subtreeCounts (slashes before ++ path ++ slashes after) names =
      s.subtreeCounts path names) ∧
    ∀ (s' : TagStore) names', s'.get? = s.get? → (∀ name, name ∈ names ↔ name ∈ names') →
      s.NamedOnce (trimmed path) names → s.NamedOnce (trimmed path) names' →
      (s.subtreeCounts path names).Perm (s'.subtreeCounts path names') := by
  refine ⟨s.listsSubtrees_subtreeCounts path names, fun name n => s.count_of_mem_subtreeCounts,
    s.countsSubtrees_iff path names, ?_, ?_⟩
  · intro before after
    rw [subtreeCounts, Path.trimmed_slashes]
    rfl
  · intro s' names' found same once once'
    have table := (s.countsSubtrees_iff path names).mpr once
    have table' := (s.countsSubtrees_iff path names').mpr once'
    rw [subtreeCounts_of_perm (entries_perm found)]
    refine (List.perm_ext_iff_of_nodup table.distinct.of_map table'.distinct.of_map).mpr fun c => ?_
    exact ⟨table.mem table' fun name => (same name).mp, table'.mem table fun name => (same name).mpr⟩

/-- Names that lead to nested paths, to a repository without tags, and to nothing. -/
theorem subtreeCounts_as_often_as_named_nested :
    let store := ((empty.insert "team/x" ["v1", "v2"]).insert "team/x/sub" ["v1"]).insert "team/y" []
    let names := ["x/sub", "x", "ghost", "y"]
    store.NamedOnce (trimmed "/team/") names ∧
      store.CountsSubtrees (trimmed "/team/") names (store.subtreeCounts "/team/" names) ∧
      store.subtreeCounts "/team/" names = [⟨"team/x/sub", 1⟩, ⟨"team/x", 3⟩, ⟨"team/y", 0⟩] := by
  intro store names
  have once : store.NamedOnce (trimmed "/team/") names :=
    fun name named _ => List.count_eq_one_of_mem (by decide) named
  obtain ⟨-, -, right, -⟩ := store.subtreeCounts_as_often_as_named "/team/" names
  exact ⟨once, right.mpr once, by decide⟩

/-- A name that is given twice has its tags counted twice. -/
theorem repeated_name_counts_twice :
    let store := empty.insert "team/x" ["v1", "v2"]
    store.tagsWithin "team/x" = 2 ∧
      store.subtreeCounts "team" ["x"] = [⟨"team/x", 2⟩] ∧
      store.subtreeCounts "team" ["x", "x"] = [⟨"team/x", 4⟩] ∧
      ¬ store.CountsSubtrees "team" ["x", "x"] (store.subtreeCounts "team" ["x", "x"]) := by
  intro store
  have tags : store.tagsWithin "team/x" = 2 := by decide
  have twice : store.subtreeCounts "team" ["x", "x"] = [⟨"team/x", 4⟩] := by decide
  refine ⟨tags, by decide, twice, fun counts => ?_⟩
  have right : (4 : Nat) = store.tagsWithin "team/x" :=
    counts.counted ⟨"team/x", 4⟩ (by rw [twice]; exact List.mem_singleton.mpr rfl)
  rw [tags] at right
  cases right

end TagStore

end RegistryCache
