import Mathlib.Algebra.GroupWithZero.Nat
import Mathlib.Data.Finset.Card
import RegistryCache.Proofs.CatalogHistory

/-! # How often the catalog lists a repository

Pages are put one behind the other, and the list is taken over as it is.  So a repository stands in the
list as often as the pages of its walk name it: a registry that changes while it is read, and names a
repository on two pages, has it counted twice and its tags fetched twice in one pass.  The pass asks for
what the list holds, entry by entry (`TagPass.asks_begin`).  The main statement is
`Interleaving.listed_as_often_as_named`.
-/

namespace RegistryCache

/-! ## What one walk names -/

/-- The last of some walks that brought anything. -/
def latestWalk (walks : List (List PageHeard)) : List PageHeard :=
  (walks.filter (repositoriesOf · ≠ [])).getLast?.getD []

theorem repositoriesOf_latestWalk (walks : List (List PageHeard)) :
    repositoriesOf (latestWalk walks) = latestNonempty walks := by
  rw [latestNonempty, latestWalk, List.filter_map, List.getLast?_map, Function.comp_def]
  cases (walks.filter (repositoriesOf · ≠ [])).getLast? <;> rfl

theorem mem_latestWalk {walks : List (List PageHeard)} (brought : latestWalk walks ≠ []) :
    latestWalk walks ∈ walks := by
  unfold latestWalk at brought ⊢
  cases last : (walks.filter (repositoriesOf · ≠ [])).getLast? with
  | none =>
    rw [last] at brought
    exact absurd rfl brought
  | some walk => exact List.mem_of_mem_filter (List.mem_of_getLast? last)

/-- How often some pages name a repository. -/
def timesNamed (repository : String) (pages : List PageHeard) : Nat :=
  (pages.map fun heard => heard.2.repositories.count repository).sum

theorem count_repositoriesOf (repository : String) (pages : List PageHeard) :
    (repositoriesOf pages).count repository = timesNamed repository pages :=
  List.count_flatMap

/-- No page names a repository twice, and no two of them name the same one. -/
def NamedOnce (pages : List PageHeard) : Prop :=
  (∀ heard ∈ pages, heard.2.repositories.Nodup) ∧
    pages.Pairwise fun earlier later => earlier.2.repositories.Disjoint later.2.repositories

theorem nodup_repositoriesOf_iff {pages : List PageHeard} :
    (repositoriesOf pages).Nodup ↔ NamedOnce pages :=
  List.nodup_flatMap

/-! ## What one pass asks for -/

/-- The reply to one fetch of a pass, and how the cache and the clock stand when it arrives. -/
structure TagArrival where
  cache : MetadataCache
  now : Instant
  reply : Except RegistryError (List String)

namespace TagPass

/-- The calls that a pass begins as replies arrive, as long as nobody stops it. -/
def asks : List TagArrival → Progress TagPass PassOutcome → List Call
  | arrival :: later, .waiting pass =>
    let step := pass.receive arrival.cache arrival.now false arrival.reply
    step.begun ++ asks later step.next
  | _, _ => []

@[simp] theorem asks_done (arrivals : List TagArrival) (outcome : PassOutcome) :
    asks arrivals (.done outcome) = [] := by
  cases arrivals <;> rfl

/-- A pass with some repositories before it asks for their tags one after the other, whatever the
    replies are and whatever becomes of the cache between them. -/
theorem asks_visit (tally : PassTally) (cache : MetadataCache) (now : Instant)
    (repositories : List String) (arrivals : List TagArrival) :
    (tally.visit cache now false repositories).begun ++
        asks arrivals (tally.visit cache now false repositories).next =
      (repositories.take (arrivals.length + 1)).map Call.tagList := by
  induction arrivals generalizing tally cache now repositories with
  | nil => cases repositories <;> simp [PassTally.visit, PassTally.complete, asks]
  | cons arrival later inductionHypothesis =>
    cases repositories with
    | nil => simp [PassTally.visit, PassTally.complete]
    | cons repository rest =>
      -- the reply is counted, and the rest is visited from there
      let fetched := TagFetch.receive repository arrival.cache arrival.reply
      have onward := inductionHypothesis (tally.count fetched.next) fetched.cache arrival.now rest
      simp only [PassTally.visit, asks, receive, Bool.false_eq_true, if_false, Step.begun_andThen,
        Step.next_andThen, TagFetch.begun_receive, List.nil_append, List.length_cons,
        List.take_succ_cons, List.map_cons]
      exact congrArg (Call.tagList repository :: ·) onward

theorem asks_begin (cache : MetadataCache) (now : Instant) {arrivals : List TagArrival}
    (enough : cache.catalog.repositories.length ≤ arrivals.length) :
    (begin cache now false).begun ++ asks arrivals (begin cache now false).next =
      cache.catalog.repositories.map Call.tagList := by
  have visited := asks_visit ⟨now, cache.catalog.repositories.length, 0, 0⟩ cache now
    cache.catalog.repositories arrivals
  rwa [List.take_of_length_le (Nat.le_succ_of_le enough)] at visited

end TagPass

/-! ## Whole runs -/

namespace Interleaving

variable {σ : Interleaving}

/-- Whatever was done to a cache that knew nothing, by any number of callers and loops and in any
    order, with the last complete walk that named any repository:

    * a repository stands in the list as often as the pages of this walk name it;
    * a pass over all tags that begins now, and that nobody stops, fetches its tags as often as that;
    * so no repository stands there twice exactly if no page of the walk names one twice and no two of
      its pages name the same one;
    * exactly then the number in the statistics is the number of repositories;
    * and exactly then no pass fetches the tags of a repository twice. -/
theorem listed_as_often_as_named {policy : RefreshPolicy} {now : Instant} {events : List Event}
    (run : Run (idle (.fresh policy) now) events σ) :
    let walk := latestWalk (CatalogHistory.ofEvents events).completed
    let repositories := σ.cache.catalog.repositories
    (repositories ≠ [] → walk ∈ (CatalogHistory.ofEvents events).completed ∧ IsWalk walk) ∧
    (∀ repository, repositories.count repository = timesNamed repository walk) ∧
    (∀ started (arrivals : List TagArrival), repositories.length ≤ arrivals.length →
      let pass := TagPass.begin σ.cache started false
      ∀ repository, (pass.begun ++ TagPass.asks arrivals pass.next).count (.tagList repository) =
        timesNamed repository walk) ∧
    (repositories.Nodup ↔ NamedOnce walk) ∧
    (∀ n, (σ.cache.statistics n).repositoryCount = repositories.toFinset.card ↔ NamedOnce walk) ∧
    (∀ started (arrivals : List TagArrival), repositories.length ≤ arrivals.length →
      let pass := TagPass.begin σ.cache started false
      (pass.begun ++ TagPass.asks arrivals pass.next).Nodup ↔ NamedOnce walk) := by
  intro walk repositories
  have list : repositories = repositoriesOf walk :=
    run.follows.list.trans (repositoriesOf_latestWalk _).symm
  have once : repositories.Nodup ↔ NamedOnce walk := by
    rw [list]
    exact nodup_repositoriesOf_iff
  have named : ∀ repository, repositories.count repository = timesNamed repository walk := by
    intro repository
    rw [list]
    exact count_repositoriesOf repository walk
  have injective : Function.Injective Call.tagList := fun _ _ => Call.tagList.inj
  refine ⟨?_, named, ?_, once, ?_, ?_⟩
  · intro listed
    have brought : walk ≠ [] := by
      intro empty
      rw [list, empty] at listed
      exact listed rfl
    exact ⟨mem_latestWalk brought, run.follows.whole walk (mem_latestWalk brought)⟩
  · intro started arrivals enough pass repository
    rw [TagPass.asks_begin σ.cache started enough, List.count_map_of_injective _ _ injective]
    exact named repository
  · intro n
    rw [← once, ← Multiset.coe_nodup, ← Multiset.toFinset_card_eq_card_iff_nodup]
    exact eq_comm
  · intro started arrivals enough pass
    rw [TagPass.asks_begin σ.cache started enough, List.nodup_map_iff injective]
    exact once

/-- A walk of three pages, one of them empty, that names every repository once; a refresh before it
    named `web` on both of its pages. -/
theorem listed_as_often_as_named_apart :
    ∃ events σ, Run (idle (.fresh .standard) 0) events σ ∧
      NamedOnce (latestWalk (CatalogHistory.ofEvents events).completed) ∧
      (CatalogHistory.ofEvents events).completed.length = 2 ∧
      σ.cache.catalog.repositories = ["app", "web"] ∧ σ.cache.catalog.repositories.Nodup := by
  have first : Run (idle (.fresh .standard) 0) _ _ := .single (.begin (i := 0) rfl .refreshCatalog)
  have second := first.step (.hear (i := 0) rfl false (.ok (⟨["web"], some "web"⟩ : CatalogPage)))
  have third := second.step (.hear (i := 0) rfl false (.ok (⟨["web"], none⟩ : CatalogPage)))
  have fourth := third.step (.begin (i := 0) rfl .refreshCatalog)
  have fifth := fourth.step (.hear (i := 0) rfl false (.ok (⟨["app"], some "app"⟩ : CatalogPage)))
  have sixth := fifth.step (.hear (i := 0) rfl false (.ok (⟨[], some "b"⟩ : CatalogPage)))
  have seventh := sixth.step (.hear (i := 0) rfl false (.ok (⟨["web"], none⟩ : CatalogPage)))
  have apart : NamedOnce [(none, ⟨["app"], some "app"⟩), (some "app", ⟨[], some "b"⟩),
      (some "b", ⟨["web"], none⟩)] := nodup_repositoriesOf_iff.mp (by decide)
  exact ⟨_, _, seventh, apart, rfl, rfl, (listed_as_often_as_named seventh).2.2.2.1.mpr apart⟩

/-- A repository that is pushed while the catalog is read can move `web` to the second page after the
    first one has named it.  It is listed twice, counted twice, and fetched twice. -/
theorem listed_twice :
    ∃ events σ, Run (idle (.fresh .standard) 0) events σ ∧
      σ.cache.catalog.repositories = ["app", "web", "web"] ∧
      ¬ σ.cache.catalog.repositories.Nodup ∧
      (σ.cache.statistics 0).repositoryCount = 3 ∧
      (TagPass.begin σ.cache 0 false).begun ++ TagPass.asks
          [⟨σ.cache, 1, .ok []⟩, ⟨σ.cache, 2, .ok []⟩, ⟨σ.cache, 3, .ok []⟩]
          (TagPass.begin σ.cache 0 false).next =
        [.tagList "app", .tagList "web", .tagList "web"] := by
  have first : Run (idle (.fresh .standard) 0) _ _ := .single (.begin (i := 0) rfl .refreshCatalog)
  have second := first.step
    (.hear (i := 0) rfl false (.ok (⟨["app", "web"], some "2"⟩ : CatalogPage)))
  have third := second.step (.hear (i := 0) rfl false (.ok (⟨["web"], none⟩ : CatalogPage)))
  have repeated : ¬ ["app", "web", "web"].Nodup := by decide
  exact ⟨_, _, third, rfl, repeated, rfl, rfl⟩

end Interleaving

end RegistryCache
