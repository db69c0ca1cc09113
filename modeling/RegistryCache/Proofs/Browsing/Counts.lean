import Mathlib.Algebra.BigOperators.Group.List.Basic
import Mathlib.Algebra.GroupWithZero.Nat
import Mathlib.Data.List.Nodup
import RegistryCache.Program.Report
import RegistryCache.Proofs.Browsing.Children

/-! # The counts that browsing shows

Beside a name stands the number of cached tags within it.  The counts are made by adding up over
candidates and entries (`countAt_subtreeCounts`); each cached repository is within one of the names
that are listed, or has no next segment, so the numbers add up to what lies below the path
(`shows_counts`).
-/

namespace RegistryCache

open RegistryCache.Path (IsSegment Within HasNext child)

namespace TagStore

variable (s : TagStore)

/-- The number of cached tags of the repositories with a property. -/
def tagsOf (P : String → Prop) [DecidablePred P] : Nat :=
  (s.entries.map fun e => if P e.repository then e.tags.length else 0).sum

/-! ## Adding up -/

theorem sum_map_ite {α : Type} (P : α → Prop) [DecidablePred P] (amount : Nat) (xs : List α) :
    (xs.map fun x => if P x then amount else 0).sum = xs.countP (fun x => decide (P x)) * amount := by
  induction xs with
  | nil => simp
  | cons x rest inductionHypothesis =>
    rw [List.map_cons, List.sum_cons, inductionHypothesis, List.countP_cons]
    by_cases own : P x
    · simp [own, Nat.add_mul, Nat.add_comm]
    · simp [own]

theorem countAt_addCount (path query : String) (amount : Nat) (counts : List RepositoryCount) :
    countAt (addCount path amount counts) query =
      countAt counts query + if path = query then amount else 0 := by
  induction counts with
  | nil => by_cases own : path = query <;> simp [addCount, countAt, own]
  | cons c rest inductionHypothesis =>
    rw [addCount]
    by_cases here : c.repository = path
    · rw [if_pos here]
      by_cases own : path = query
      · simp [countAt, here, own]
      · simp [countAt, here, own]
    · rw [if_neg here]
      by_cases found : c.repository = query
      · have other : ¬ path = query := fun same => here (found.trans same.symm)
        simp [countAt, found, other]
      · simpa [countAt, found] using inductionHypothesis

/-- Entries that are added up for one path count there and nowhere else. -/
theorem countAt_foldl_addCount (root query : String) (es : List TagEntry)
    (counts : List RepositoryCount) :
    countAt (es.foldl (fun counts e => addCount root e.tags.length counts) counts) query =
      countAt counts query + if root = query then (es.map fun e => e.tags.length).sum else 0 := by
  induction es generalizing counts with
  | nil => simp
  | cons e rest inductionHypothesis =>
    rw [List.foldl_cons, inductionHypothesis, countAt_addCount]
    by_cases own : root = query
    · simp [own, Nat.add_assoc]
    · simp [own]

theorem sum_subtree (root : String) :
    ((s.subtree root).map fun e => e.tags.length).sum = s.tagsOf (Within root) := by
  rw [subtree, tagsOf]
  induction s.entries with
  | nil => rfl
  | cons e rest inductionHypothesis =>
    by_cases own : Path.inSubtree root e.repository = true
    · simp [own, Path.inSubtree_iff.mp own, inductionHypothesis]
    · simp [own, Path.inSubtree_iff.not.mp own, inductionHypothesis]

/-- The count at a path is the number of tags within it, as often as candidates lead there. -/
theorem countAt_subtreeCounts (path query : String) (candidates : List String) :
    countAt (s.subtreeCounts path candidates) query =
      candidates.countP (fun name => decide (child (Path.trimmed path) name = query)) *
        s.tagsOf (Within query) := by
  have onward : ∀ counts, countAt (candidates.foldl (fun counts candidate =>
      (s.subtree (child (Path.trimmed path) candidate)).foldl (fun counts e =>
        addCount (child (Path.trimmed path) candidate) e.tags.length counts) counts) counts) query =
      countAt counts query + (candidates.map fun name =>
        if child (Path.trimmed path) name = query then s.tagsOf (Within query) else 0).sum := by
    induction candidates with
    | nil => simp
    | cons name rest inductionHypothesis =>
      intro counts
      rw [List.foldl_cons, inductionHypothesis, countAt_foldl_addCount, sum_subtree, List.map_cons,
        List.sum_cons, Nat.add_assoc]
      by_cases own : child (Path.trimmed path) name = query
      · rw [if_pos own, if_pos own, own]
      · rw [if_neg own, if_neg own]
  rw [subtreeCounts, onward, sum_map_ite]
  simp [countAt]

/-! ## The names below a path -/

/-- A repository counts in one of the names below a path, if its next segment is among them. -/
theorem sum_within {names : List String} (distinct : names.Nodup)
    (segments : ∀ name ∈ names, IsSegment name) {root repository : String}
    (listed : ∀ name, Path.nextSegment? root repository = some name → name ∈ names) (amount : Nat) :
    (names.map fun name => if Within (child root name) repository then amount else 0).sum =
      if HasNext root repository then amount else 0 := by
  rw [sum_map_ite]
  by_cases has : HasNext root repository
  · obtain ⟨next, isNext⟩ := Option.isSome_iff_exists.mp (Path.isSome_nextSegment?_iff.mpr has)
    obtain ⟨segment, within⟩ := Path.nextSegment?_eq_some_iff.mp isNext
    have once : names.countP (fun name => decide (Within (child root name) repository)) =
        names.countP (· == next) := by
      refine List.countP_congr ?_
      intro name member
      simp only [decide_eq_true_eq, beq_iff_eq]
      constructor
      · intro within'
        exact Within.unique (segments name member) segment within' within
      · rintro rfl
        exact within
    rw [once, ← List.count, List.count_eq_one_of_mem distinct (listed next isNext), if_pos has,
      Nat.one_mul]
  · have none_within : names.countP (fun name => decide (Within (child root name) repository)) = 0 := by
      rw [List.countP_eq_zero]
      intro name member
      simp only [decide_eq_true_eq]
      intro within
      refine has (Path.isSome_nextSegment?_iff.mp ?_)
      rw [Path.nextSegment?_eq_some_iff.mpr ⟨segments name member, within⟩]
      rfl
    rw [none_within, if_neg has, Nat.zero_mul]

/-- The tags within different names that cover all next segments are those of the repositories that
    have one. -/
theorem sum_tagsOf_within {names : List String} (distinct : names.Nodup)
    (segments : ∀ name ∈ names, IsSegment name) {root : String}
    (listed : ∀ e ∈ s.entries, ∀ name,
      Path.nextSegment? root e.repository = some name → name ∈ names) :
    (names.map fun name => s.tagsOf (Within (child root name))).sum = s.tagsOf (HasNext root) := by
  unfold tagsOf
  generalize s.entries = es at listed ⊢
  induction es with
  | nil => simp
  | cons e rest inductionHypothesis =>
    simp only [List.map_cons, List.sum_cons, List.sum_map_add]
    rw [sum_within distinct segments (listed e (List.mem_cons_self ..)),
      inductionHypothesis fun e' member => listed e' (List.mem_cons_of_mem e member)]

theorem total_eq_sum : s.total = (s.entries.map fun e => e.tags.length).sum := by
  rw [total]
  induction s.entries with
  | nil => rfl
  | cons e rest inductionHypothesis => simp [inductionHypothesis]

theorem tagsOf_eq_total {P : String → Prop} [DecidablePred P] (all : ∀ e ∈ s.entries, P e.repository) :
    s.tagsOf P = s.total := by
  rw [tagsOf, total_eq_sum]
  congr 1
  exact List.map_congr_left fun e member => if_pos (all e member)

end TagStore

/-! ## What browsing shows -/

namespace Report

/-- The counts beside the names below a path: each is the number of cached tags within the name, no
    repository is within two of them, and together they are the tags of the repositories that have a
    next segment there. -/
structure ShowsCounts (c : Catalog) (s : TagStore) (path : String) : Prop where
  shown : entries path (c.children path).names s = (c.children path).names.map fun name =>
    ⟨name, child (Path.trimmed path) name, s.tagsOf (Within (child (Path.trimmed path) name))⟩
  apart : ∀ name ∈ (c.children path).names, ∀ name' ∈ (c.children path).names, ∀ repository,
    Within (child (Path.trimmed path) name) repository →
    Within (child (Path.trimmed path) name') repository → name = name'
  adds_up : ((entries path (c.children path).names s).map Entry.tagCount).sum =
    s.tagsOf (HasNext (Path.trimmed path))
  /-- At the top these are all cached tags, if every name begins with a segment. -/
  top : Path.trimmed path = "" →
    (∀ e ∈ s.entries, e.repository ≠ "" ∧ e.repository.toList.head? ≠ some '/') →
    ((entries path (c.children path).names s).map Entry.tagCount).sum = s.total

/-- The entries for different names show the tags within each. -/
theorem entries_eq {names : List String} (distinct : names.Nodup) (s : TagStore) (path : String) :
    entries path names s = names.map fun name =>
      ⟨name, child (Path.trimmed path) name, s.tagsOf (Within (child (Path.trimmed path) name))⟩ := by
  refine List.map_congr_left ?_
  intro name member
  have once : names.countP (fun other =>
      decide (child (Path.trimmed path) other = child (Path.trimmed path) name)) =
      names.countP (· == name) := by
    refine List.countP_congr ?_
    intro other _
    simp only [decide_eq_true_eq, beq_iff_eq]
    exact ⟨Path.child_injective, fun same => same ▸ rfl⟩
  dsimp only
  rw [TagStore.countAt_subtreeCounts, once, ← List.count, List.count_eq_one_of_mem distinct member,
    Nat.one_mul]

/-- Browsing counts each tag once where the catalog has all cached repositories. -/
theorem shows_counts (c : Catalog) (s : TagStore)
    (known : ∀ e ∈ s.entries, e.repository ∈ c.repositories) (path : String) :
    ShowsCounts c s path := by
  have shown := entries_eq (c.nodup_names_children path) s path
  have segments : ∀ name ∈ (c.children path).names, IsSegment name :=
    fun name listed => (c.mem_names_children_iff.mp listed).1
  have adds_up : ((entries path (c.children path).names s).map Entry.tagCount).sum =
      s.tagsOf (HasNext (Path.trimmed path)) := by
    rw [shown, List.map_map]
    refine s.sum_tagsOf_within (c.nodup_names_children path) segments ?_
    intro e member name next
    obtain ⟨segment, within⟩ := Path.nextSegment?_eq_some_iff.mp next
    exact c.mem_names_children_iff.mpr ⟨segment, e.repository, known e member, within⟩
  refine ⟨shown, ?_, adds_up, ?_⟩
  · intro name listed name' listed' repository within within'
    exact Within.unique (segments name listed) (segments name' listed') within within'
  · intro top plain
    rw [adds_up]
    refine s.tagsOf_eq_total ?_
    intro e member
    obtain ⟨named, solid⟩ := plain e member
    cases letters : e.repository.toList with
    | nil => exact absurd (String.toList_eq_nil_iff.mp letters) named
    | cons first rest =>
      refine ⟨first, rest, ?_, ?_⟩
      · rintro rfl
        exact solid (by rw [letters]; rfl)
      · rw [top, Path.child_root, ← letters, String.ofList_toList]

/-- A repository that is also a directory, with tags on both levels. -/
theorem shows_counts_nested :
    let catalog : Catalog := ⟨["app", "app/base", "app/base/slim"], true⟩
    let store := (TagStore.empty.insert "app/base" ["v1", "v2"]).insert "app/base/slim" ["v1"]
    (∀ e ∈ store.entries, e.repository ∈ catalog.repositories) ∧ ShowsCounts catalog store "/app/" := by
  have known : ∀ e ∈ ((TagStore.empty.insert "app/base" ["v1", "v2"]).insert "app/base/slim"
      ["v1"]).entries, e.repository ∈ ["app", "app/base", "app/base/slim"] := by decide
  exact ⟨known, shows_counts ⟨["app", "app/base", "app/base/slim"], true⟩ _ known "/app/"⟩

end Report

end RegistryCache
