import Mathlib.Data.List.Nodup
import RegistryCache.Proofs.TagOrder

/-! # The largest repositories

The list of the largest repositories is a ranking that is cut off.  A ranking shows the largest first,
and leaves it open which of equal count come first (`TagStore.IsRanking`), so the cut may go through a
group of equals.  What comes out is told without sorting anything (`TagStore.IsTop`), and it is all that
can come out.  The main statement is `TagStore.cut_ranking_is_top`.
-/

namespace RegistryCache.TagStore

variable {s : TagStore} {n m : Nat} {rows rows' ranking : List RepositoryCount}

/-- Rows for at most `n` cached repositories, the largest first, where none that is left out is larger
    than one that is shown. -/
structure IsTop (s : TagStore) (n : Nat) (rows : List RepositoryCount) : Prop where
  length : rows.length = min n s.size
  distinct : (rows.map RepositoryCount.repository).Nodup
  own : ∀ row ∈ rows, s.count? row.repository = some row.count
  descending : rows.Pairwise fun a b => b.count ≤ a.count
  leftOut : ∀ repository count, s.count? repository = some count →
    repository ∉ rows.map RepositoryCount.repository → ∀ row ∈ rows, count ≤ row.count

/-! ## The rows to choose from -/

theorem mem_counts_iff {row : RepositoryCount} :
    row ∈ s.counts ↔ s.count? row.repository = some row.count := by
  rw [counts, List.mem_map, count?, Option.map_eq_some_iff]
  constructor
  · rintro ⟨⟨repository, tags⟩, member, rfl⟩
    exact ⟨tags, (s.mem_entries_iff repository tags).mp member, rfl⟩
  · rintro ⟨tags, found, same⟩
    exact ⟨⟨row.repository, tags⟩, (s.mem_entries_iff _ _).mpr found, by rw [same]⟩

theorem nodup_repository_counts (s : TagStore) :
    (s.counts.map RepositoryCount.repository).Nodup := by
  simpa [counts, Function.comp_def] using s.distinct

theorem length_counts (s : TagStore) : s.counts.length = s.size := by
  simp [counts, size]

theorem IsRanking.length (sorted : s.IsRanking ranking) : ranking.length = s.size := by
  rw [sorted.complete.length_eq, length_counts]

/-! ## Cutting off -/

theorem IsRanking.isTop (sorted : s.IsRanking ranking) (n : Nat) : s.IsTop n (ranking.take n) := by
  have distinct : (ranking.map RepositoryCount.repository).Nodup :=
    (sorted.complete.map _).nodup_iff.mpr s.nodup_repository_counts
  refine ⟨?_, ?_, ?_, ?_, ?_⟩
  · rw [List.length_take, sorted.length]
  · rw [List.map_take]
    exact distinct.sublist (List.take_sublist ..)
  · intro row member
    exact mem_counts_iff.mp (sorted.complete.mem_iff.mp (List.mem_of_mem_take member))
  · exact sorted.descending.sublist (List.take_sublist ..)
  · intro repository count cached absent row member
    -- what is left out stands behind the cut
    have ranked : ⟨repository, count⟩ ∈ ranking :=
      sorted.complete.mem_iff.mpr (mem_counts_iff.mpr cached)
    rw [← List.take_append_drop n ranking, List.mem_append] at ranked
    obtain shown | behind := ranked
    · exact absurd (List.mem_map_of_mem shown) absent
    · have descending := sorted.descending
      rw [← List.take_append_drop n ranking, List.pairwise_append] at descending
      exact descending.2.2 row member _ behind

/-- The rows that are not shown. -/
def unshown (s : TagStore) (rows : List RepositoryCount) : List RepositoryCount :=
  s.counts.filter fun c => c.repository ∉ rows.map RepositoryCount.repository

theorem IsTop.append_perm (top : s.IsTop n rows) : (rows ++ s.unshown rows).Perm s.counts := by
  have apart : rows.Disjoint (s.unshown rows) := by
    intro row shown unshown
    exact of_decide_eq_true (List.mem_filter.mp unshown).2 (List.mem_map_of_mem shown)
  refine (List.perm_ext_iff_of_nodup ?_ s.nodup_repository_counts.of_map).mpr fun row => ?_
  · exact top.distinct.of_map.append (s.nodup_repository_counts.of_map.filter _) apart
  · rw [List.mem_append, unshown, List.mem_filter]
    constructor
    · rintro (shown | ⟨member, -⟩)
      · exact mem_counts_iff.mpr (top.own row shown)
      · exact member
    · intro member
      by_cases listed : row.repository ∈ rows.map RepositoryCount.repository
      · -- the repository has one count, so it is shown with this one
        obtain ⟨row', shown, same⟩ := List.mem_map.mp listed
        have count := top.own row' shown
        rw [same, mem_counts_iff.mp member] at count
        cases row
        cases row'
        cases same
        cases count
        exact .inl shown
      · exact .inr ⟨member, decide_eq_true listed⟩

/-- Rows that are a top can be continued to a ranking. -/
theorem IsTop.exists_ranking (top : s.IsTop n rows) :
    ∃ ranking, s.IsRanking ranking ∧ rows = ranking.take n := by
  let rest := (s.unshown rows).mergeSort largerFirst
  have sorted : rest.Perm (s.unshown rows) := List.mergeSort_perm ..
  have complete := (sorted.append_left rows).trans top.append_perm
  refine ⟨rows ++ rest, ⟨complete, ?_⟩, ?_⟩
  · refine List.pairwise_append.mpr ⟨top.descending, ?_, ?_⟩
    · exact (List.pairwise_mergeSort largerFirst_trans largerFirst_total _).imp le_of_largerFirst
    · intro row shown other behind
      obtain ⟨member, absent⟩ := List.mem_filter.mp (sorted.mem_iff.mp behind)
      exact top.leftOut _ _ (mem_counts_iff.mp member) (of_decide_eq_true absent) row shown
  · -- nothing more fits, or nothing more is there
    have shown := top.length
    have all := complete.length_eq
    rw [length_counts, List.length_append] at all
    have nothing : rest.take (n - rows.length) = [] := by
      rw [← List.length_eq_zero_iff, List.length_take]
      omega
    rw [List.take_append, nothing, List.append_nil, List.take_of_length_le (by omega)]

theorem isTop_iff : s.IsTop n rows ↔ ∃ ranking, s.IsRanking ranking ∧ rows = ranking.take n := by
  constructor
  · exact IsTop.exists_ranking
  · rintro ⟨ranking, sorted, rfl⟩
    exact sorted.isTop n

/-! ## The column of counts -/

/-- Of two tops, the shorter one has the first counts of the longer one, also where their repositories
    differ. -/
theorem IsTop.counts_eq_take {s' : TagStore} (top : s.IsTop n rows) (top' : s'.IsTop m rows')
    (found : s'.get? = s.get?) (shorter : n ≤ m) :
    rows.map RepositoryCount.count = (rows'.map RepositoryCount.count).take n := by
  obtain ⟨ranking, sorted, rfl⟩ := top.exists_ranking
  obtain ⟨ranking', sorted', rfl⟩ := top'.exists_ranking
  rw [List.map_take, List.map_take, List.take_take, Nat.min_eq_left shorter,
    sorted.counts_eq sorted' (entries_perm found.symm)]

theorem IsTop.sum_counts (top : s.IsTop n rows) (all : s.size ≤ n) :
    (rows.map RepositoryCount.count).sum = s.total := by
  obtain ⟨ranking, sorted, rfl⟩ := top.exists_ranking
  rw [List.take_of_length_le (sorted.length ▸ all), (sorted.complete.map _).sum_eq, total_eq_sum,
    counts, List.map_map]
  rfl

/-- A ranking that is cut off is a top, whatever order the entries are in and whichever of equal count
    come first, and every top is one.  So its counts do not depend on any of this: they are the first
    ones of every longer top, and add up to all cached tags if nothing is cut off. -/
theorem cut_ranking_is_top (s : TagStore) :
    (∀ n rows, s.IsTop n rows ↔ ∃ ranking, s.IsRanking ranking ∧ rows = ranking.take n) ∧
    (∀ n, s.IsTop n (s.top n)) ∧
    (∀ (s' : TagStore) n rows, s'.get? = s.get? → s'.IsTop n rows →
      rows.map RepositoryCount.count = (s.top n).map RepositoryCount.count) ∧
    (∀ n m rows rows', n ≤ m → s.IsTop n rows → s.IsTop m rows' →
      rows.map RepositoryCount.count = (rows'.map RepositoryCount.count).take n) ∧
    ∀ n rows, s.size ≤ n → s.IsTop n rows → (rows.map RepositoryCount.count).sum = s.total := by
  have own : ∀ n, s.IsTop n (s.top n) := fun n => s.isRanking_mergeSort.isTop n
  refine ⟨fun n rows => isTop_iff, own, ?_, ?_, fun n rows all top => top.sum_counts all⟩
  · intro s' n rows found top
    have first := top.counts_eq_take (own n) found.symm (Nat.le_refl n)
    rw [first, List.take_of_length_le]
    rw [List.length_map, (own n).length]
    exact Nat.min_le_left ..
  · intro n m rows rows' shorter top top'
    exact top.counts_eq_take top' rfl shorter

/-- The cut goes through two repositories of equal count, and either of them may be shown. -/
theorem cut_ranking_is_top_equals :
    let store := ((empty.insert "app" ["v1"]).insert "web" ["v1"]).insert "api" ["v1", "v2"]
    store.IsTop 2 [⟨"api", 2⟩, ⟨"app", 1⟩] ∧ store.IsTop 2 [⟨"api", 2⟩, ⟨"web", 1⟩] ∧
      (store.top 2).map RepositoryCount.count = [2, 1] := by
  intro store
  obtain ⟨cut, -, same, -⟩ := cut_ranking_is_top store
  have first : store.IsTop 2 [⟨"api", 2⟩, ⟨"app", 1⟩] :=
    (cut 2 _).mpr ⟨[⟨"api", 2⟩, ⟨"app", 1⟩, ⟨"web", 1⟩], ⟨by decide, by decide⟩, rfl⟩
  have second : store.IsTop 2 [⟨"api", 2⟩, ⟨"web", 1⟩] :=
    (cut 2 _).mpr ⟨[⟨"api", 2⟩, ⟨"web", 1⟩, ⟨"app", 1⟩], ⟨by decide, by decide⟩, rfl⟩
  exact ⟨first, second, (same store 2 _ rfl second).symm⟩

end RegistryCache.TagStore
