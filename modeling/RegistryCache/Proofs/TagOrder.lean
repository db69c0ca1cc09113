import Mathlib.Algebra.BigOperators.Group.Finset.Basic
import Mathlib.Data.List.Sort
import RegistryCache.Proofs.Browsing.Counts
import RegistryCache.Proofs.TagHistory

/-! # The order of refreshes does not matter

What is found for a repository is told by the lists and removals of this repository alone, in their
order (`TagReply.foldl_apply_own`).  The entries of a store are what is found there, in some order, and
nothing that is read off a store depends on this order: the totals add up, and the largest counts come
out sorted, with repositories of equal count in any order (`TagStore.agree_of_get?`).  So replies for
different repositories may be interleaved in any way.  The main statement is
`TagStore.refreshes_commute`.
-/

namespace RegistryCache

/-! ## Each repository by itself -/

namespace TagReply

def repository : TagReply → String
  | listed repository _ => repository
  | removed repository _ => repository

/-- What a reply makes of a store. -/
def onStore (s : TagStore) : TagReply → TagStore
  | listed repository tags => s.insert repository tags
  | removed repository tag => s.remove repository tag

theorem get?_onStore (s : TagStore) (reply : TagReply) :
    (reply.onStore s).get? = apply s.get? reply := by
  cases reply with
  | listed repository tags => exact s.get?_insert_eq_update repository tags
  | removed repository tag => exact s.get?_remove_eq_update repository tag

theorem get?_foldl_onStore (s : TagStore) (replies : List TagReply) :
    (replies.foldl onStore s).get? = replies.foldl apply s.get? := by
  induction replies generalizing s with
  | nil => rfl
  | cons reply later inductionHypothesis =>
    rw [List.foldl_cons, List.foldl_cons, inductionHypothesis, get?_onStore]

theorem apply_of_ne {known : KnownTags} {reply : TagReply} {r : String}
    (other : reply.repository ≠ r) : apply known reply r = known r := by
  cases reply <;> exact Function.update_of_ne (Ne.symm other) _ _

/-- A reply makes of a repository what it makes of all that is known of this one. -/
theorem apply_congr {known known' : KnownTags} {r : String} (same : known r = known' r)
    (reply : TagReply) : apply known reply r = apply known' reply r := by
  by_cases own : reply.repository = r
  · subst own
    cases reply with
    | listed r tags => simp [apply, repository]
    | removed r tag =>
      have same : known r = known' r := same
      simp [apply, repository, same]
  · rw [apply_of_ne own, apply_of_ne own, same]

/-- What is known of a repository after some replies is told by its own ones. -/
theorem foldl_apply_own {known known' : KnownTags} {r : String} (same : known r = known' r)
    (replies : List TagReply) :
    replies.foldl apply known r = (replies.filter (·.repository = r)).foldl apply known' r := by
  induction replies generalizing known known' with
  | nil => exact same
  | cons reply later inductionHypothesis =>
    by_cases own : reply.repository = r
    · rw [List.filter_cons_of_pos (by simpa using own)]
      exact inductionHypothesis (apply_congr same reply)
    · rw [List.filter_cons_of_neg (by simpa using own)]
      exact inductionHypothesis ((apply_of_ne own).trans same)

end TagReply

namespace TagStore

variable {s s' : TagStore}

/-! ## What is read off a store -/

/-- Stores in which the same is found have the same entries, in some order. -/
theorem entries_perm (found : s.get? = s'.get?) : s.entries.Perm s'.entries := by
  refine (List.perm_ext_iff_of_nodup s.distinct.of_map s'.distinct.of_map).mpr ?_
  rintro ⟨repository, tags⟩
  rw [mem_entries_iff, mem_entries_iff, found]

theorem addCount_addCount (path : String) (a b : Nat) (counts : List RepositoryCount) :
    addCount path a (addCount path b counts) = addCount path (b + a) counts := by
  induction counts with
  | nil => simp [addCount]
  | cons c rest inductionHypothesis =>
    by_cases here : c.repository = path
    · simp [addCount, here, Nat.add_assoc]
    · simp [addCount, here, inductionHypothesis]

/-- Entries that are added up for one path may come in any order. -/
theorem foldl_addCount_perm (root : String) {es es' : List TagEntry} (same : es.Perm es')
    (counts : List RepositoryCount) :
    es.foldl (fun counts e => addCount root e.tags.length counts) counts =
      es'.foldl (fun counts e => addCount root e.tags.length counts) counts := by
  refine same.foldl_eq' ?_ counts
  intro e _ e' _ counts
  rw [addCount_addCount, addCount_addCount, Nat.add_comm]

theorem subtreeCounts_of_perm (same : s.entries.Perm s'.entries) (path : String)
    (candidates : List String) : s.subtreeCounts path candidates = s'.subtreeCounts path candidates := by
  unfold subtreeCounts
  dsimp only
  congr 1
  funext counts candidate
  exact foldl_addCount_perm _ (same.filter _) counts

theorem total_of_perm (same : s.entries.Perm s'.entries) : s.total = s'.total := by
  rw [total_eq_sum, total_eq_sum]
  exact (same.map _).sum_eq

/-! ### The largest repositories -/

/-- The cached repositories with their counts, the largest first, and those of equal count in any
    order. -/
structure IsRanking (s : TagStore) (rows : List RepositoryCount) : Prop where
  complete : rows.Perm s.counts
  descending : rows.Pairwise fun a b => b.count ≤ a.count

theorem largerFirst_trans (a b c : RepositoryCount) (first : largerFirst a b = true)
    (second : largerFirst b c = true) : largerFirst a c = true := by
  simp only [largerFirst, Bool.or_eq_true, Bool.and_eq_true, decide_eq_true_eq,
    beq_iff_eq] at first second ⊢
  obtain more | ⟨equal, before⟩ := first
  · left
    omega
  · obtain more | ⟨equal', before'⟩ := second
    · left
      omega
    · exact .inr ⟨equal.trans equal', String.le_trans before before'⟩

theorem largerFirst_total (a b : RepositoryCount) :
    (largerFirst a b || largerFirst b a) = true := by
  simp only [largerFirst, Bool.or_eq_true, Bool.and_eq_true, decide_eq_true_eq, beq_iff_eq]
  rcases Nat.lt_trichotomy a.count b.count with less | equal | more
  · exact .inr (.inl less)
  · rcases String.le_total a.repository b.repository with before | behind
    · exact .inl (.inr ⟨equal, before⟩)
    · exact .inr (.inr ⟨equal.symm, behind⟩)
  · exact .inl (.inl more)

theorem le_of_largerFirst {a b : RepositoryCount} (first : largerFirst a b = true) :
    b.count ≤ a.count := by
  simp only [largerFirst, Bool.or_eq_true, Bool.and_eq_true, decide_eq_true_eq, beq_iff_eq] at first
  omega

theorem isRanking_mergeSort (s : TagStore) : s.IsRanking (s.counts.mergeSort largerFirst) where
  complete := List.mergeSort_perm s.counts largerFirst
  descending := (List.pairwise_mergeSort largerFirst_trans largerFirst_total s.counts).imp
    le_of_largerFirst

/-- Two rankings show the same counts one below the other, whichever repositories of equal count come
    first. -/
theorem IsRanking.counts_eq {rows rows' : List RepositoryCount} (ranking : s.IsRanking rows)
    (ranking' : s'.IsRanking rows') (same : s.entries.Perm s'.entries) :
    rows.map RepositoryCount.count = rows'.map RepositoryCount.count := by
  have counts : s.counts.Perm s'.counts := same.map _
  have perm := (ranking.complete.trans (counts.trans ranking'.complete.symm)).map
    RepositoryCount.count
  have descending : (rows.map RepositoryCount.count).Pairwise fun a b => b ≤ a :=
    List.pairwise_map.mpr ranking.descending
  have descending' : (rows'.map RepositoryCount.count).Pairwise fun a b => b ≤ a :=
    List.pairwise_map.mpr ranking'.descending
  exact perm.eq_of_pairwise (fun _ _ _ _ less less' => Nat.le_antisymm less' less) descending
    descending'

/-! ## Agreement -/

/-- Two stores that cannot be told apart by anything that is read off them. -/
structure Agree (s s' : TagStore) : Prop where
  get? : ∀ repository, s.get? repository = s'.get? repository
  count? : ∀ repository, s.count? repository = s'.count? repository
  contains : ∀ repository, s.contains repository = s'.contains repository
  lists : ∀ repository tag, s.lists repository tag = s'.lists repository tag
  size : s.size = s'.size
  total : s.total = s'.total
  subtreeCounts : ∀ path candidates,
    s.subtreeCounts path candidates = s'.subtreeCounts path candidates
  /-- The counts of the largest repositories, as they are shown and in any other order that shows the
      largest first. -/
  top : ∀ n, (s.top n).map RepositoryCount.count = (s'.top n).map RepositoryCount.count
  rankings : ∀ rows rows', s.IsRanking rows → s'.IsRanking rows' →
    ∀ n, (rows.take n).map RepositoryCount.count = (rows'.take n).map RepositoryCount.count

/-- Stores in which the same is found agree on everything. -/
theorem agree_of_get? (found : s.get? = s'.get?) : s.Agree s' := by
  have same := entries_perm found
  have ranked : ∀ rows rows', s.IsRanking rows → s'.IsRanking rows' →
      ∀ n, (rows.take n).map RepositoryCount.count = (rows'.take n).map RepositoryCount.count := by
    intro rows rows' ranking ranking' n
    rw [List.map_take, List.map_take, ranking.counts_eq ranking' same]
  exact
    { get? := congrFun found
      count? := by
        intro repository
        rw [count?, count?, found]
      contains := by
        intro repository
        rw [contains, contains, found]
      lists := by
        intro repository tag
        rw [lists, lists, found]
      size := same.length_eq
      total := total_of_perm same
      subtreeCounts := subtreeCounts_of_perm same
      top := ranked _ _ s.isRanking_mergeSort s'.isRanking_mergeSort
      rankings := ranked }

/-! ## The total -/

/-- The repositories with an entry. -/
def cached (s : TagStore) : Finset String := (s.entries.map TagEntry.repository).toFinset

theorem mem_cached_iff {repository : String} :
    repository ∈ s.cached ↔ s.contains repository = true := by
  simp only [cached, List.mem_toFinset, List.mem_map, contains, Option.isSome_iff_exists,
    ← mem_entries_iff]
  constructor
  · rintro ⟨⟨_, tags⟩, member, rfl⟩
    exact ⟨tags, member⟩
  · rintro ⟨tags, member⟩
    exact ⟨_, member, rfl⟩

theorem total_eq_sum_cached (s : TagStore) :
    s.total = ∑ repository ∈ s.cached, ((s.get? repository).getD []).length := by
  rw [cached, List.sum_toFinset _ s.distinct, List.map_map, total_eq_sum]
  congr 1
  refine List.map_congr_left ?_
  rintro ⟨repository, tags⟩ member
  rw [Function.comp_apply, s.mem_entries_iff repository tags |>.mp member, Option.getD_some]

/-! ## Whole histories -/

/-- Two sequences of fetched lists and removals that have, for every repository, the same ones in the
    same order, make stores of one store that agree on everything that is read off them; and the total
    is the sum of the lengths of what is found for the repositories that are cached. -/
theorem refreshes_commute (s : TagStore) {replies replies' : List TagReply}
    (same : ∀ repository, replies.filter (·.repository = repository) =
      replies'.filter (·.repository = repository)) :
    let store := replies.foldl TagReply.onStore s
    let store' := replies'.foldl TagReply.onStore s
    Agree store store' ∧
      store.total = ∑ repository ∈ store.cached, ((store.get? repository).getD []).length ∧
      ∀ repository, repository ∈ store.cached ↔ store.contains repository = true := by
  intro store store'
  refine ⟨agree_of_get? ?_, store.total_eq_sum_cached, fun _ => mem_cached_iff⟩
  funext repository
  calc store.get? repository
      = replies.foldl TagReply.apply s.get? repository := by rw [TagReply.get?_foldl_onStore]
    _ = (replies.filter (·.repository = repository)).foldl TagReply.apply s.get? repository :=
      TagReply.foldl_apply_own rfl replies
    _ = (replies'.filter (·.repository = repository)).foldl TagReply.apply s.get? repository := by
      rw [same repository]
    _ = replies'.foldl TagReply.apply s.get? repository :=
      (TagReply.foldl_apply_own rfl replies').symm
    _ = store'.get? repository := by rw [TagReply.get?_foldl_onStore]

/-- Two repositories are refreshed and lose tags; `web` is emptied, and a tag that it does not have is
    removed from it before it is there.  The stores hold their entries in different orders. -/
theorem refreshes_commute_two_repositories :
    let replies : List TagReply :=
      [.removed "web" "v1", .listed "app" ["v1", "v2"], .listed "web" ["v1"], .listed "app" ["v3"],
        .removed "web" "v1"]
    let replies' : List TagReply :=
      [.removed "web" "v1", .listed "web" ["v1"], .removed "web" "v1", .listed "app" ["v1", "v2"],
        .listed "app" ["v3"]]
    (∀ repository, replies.filter (·.repository = repository) =
        replies'.filter (·.repository = repository)) ∧
      (replies.foldl TagReply.onStore empty).entries ≠
        (replies'.foldl TagReply.onStore empty).entries ∧
      Agree (replies.foldl TagReply.onStore empty) (replies'.foldl TagReply.onStore empty) := by
  intro replies replies'
  have same : ∀ repository, replies.filter (·.repository = repository) =
      replies'.filter (·.repository = repository) := by
    intro repository
    by_cases app : "app" = repository
    · subst app
      decide
    · by_cases web : "web" = repository
      · subst web
        decide
      · simp [replies, replies', TagReply.repository, app, web]
  exact ⟨same, by decide, (refreshes_commute empty same).1⟩

end TagStore

end RegistryCache
