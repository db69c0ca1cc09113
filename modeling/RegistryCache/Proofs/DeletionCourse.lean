import Mathlib.Algebra.BigOperators.Group.Finset.Piecewise
import RegistryCache.Proofs.Interleaving.Traces
import RegistryCache.Proofs.TagOrder

/-! # The course of a deletion

A deletion looks its tag up, has the manifest removed that the lookup has found, and then drops the tag
from the cache.  Whichever of this fails, and whoever else is at work in the meantime, the deletion
writes to the cache at its very last move or not at all (`Deletion.Account`).  The main statement is
`Interleaving.deletion_exact`.
-/

namespace RegistryCache

/-! ## A tag leaves the store -/

namespace TagStore

/-- A store after a tag has left the entry of a repository, however often it stood there.  The other
    tags keep their order, and no entry appears or goes away. -/
structure Drops (s s' : TagStore) (repository tag : String) : Prop where
  repositories : s'.entries.map TagEntry.repository = s.entries.map TagEntry.repository
  own : s'.get? repository = (s.get? repository).map fun tags => tags.filter (· ≠ tag)
  others : ∀ r, r ≠ repository → s'.get? r = s.get? r
  total : s'.total + ((s.get? repository).getD []).count tag = s.total

variable {s s' : TagStore} {repository tag : String}

theorem total_of_dropped (same : s'.cached = s.cached)
    (own : s'.get? repository = (s.get? repository).map fun tags => tags.filter (· ≠ tag))
    (others : ∀ r, r ≠ repository → s'.get? r = s.get? r) :
    s'.total + ((s.get? repository).getD []).count tag = s.total := by
  have each (r : String) : ((s.get? r).getD []).length = ((s'.get? r).getD []).length +
      if r = repository then ((s.get? repository).getD []).count tag else 0 := by
    by_cases here : r = repository
    · subst here
      rw [own, if_pos rfl]
      cases s.get? r with
      | none => rfl
      | some tags =>
        have split := List.length_eq_countP_add_countP (l := tags) (· == tag)
        simpa [List.count, List.countP_eq_length_filter, Nat.add_comm, bne] using split
    · rw [others r here, if_neg here, Nat.add_zero]
  rw [total_eq_sum_cached, total_eq_sum_cached, same, Finset.sum_congr rfl fun r _ => each r,
    Finset.sum_add_distrib, Finset.sum_ite_eq']
  by_cases present : repository ∈ s.cached
  · rw [if_pos present]
  · -- a repository that was never fetched has no occurrences to lose
    have absent : s.get? repository = none := by
      simpa [mem_cached_iff, contains] using present
    rw [if_neg present, absent]
    rfl

theorem drops_remove (s : TagStore) (repository tag : String) :
    s.Drops (s.remove repository tag) repository tag := by
  have repositories : (s.remove repository tag).entries.map TagEntry.repository =
      s.entries.map TagEntry.repository := by
    simp [remove, Function.comp_def]
  have own : (s.remove repository tag).get? repository =
      (s.get? repository).map fun tags => tags.filter (· ≠ tag) := by
    simp [get?_remove]
  have others (r : String) (other : r ≠ repository) :
      (s.remove repository tag).get? r = s.get? r := by
    simp [get?_remove, other.symm]
  exact ⟨repositories, own, others, total_of_dropped (by rw [cached, repositories, cached]) own others⟩

end TagStore

/-- A cache after a tag has left it: only the store of tags has changed. -/
structure MetadataCache.Drops (cache cache' : MetadataCache) (repository tag : String) : Prop where
  rest : cache' = { cache with tags := cache'.tags }
  tags : cache.tags.Drops cache'.tags repository tag

/-! ## The moves of a deletion -/

namespace Deletion

open Interleaving

/-- What a deletion does after it has begun, and what it waits for then. -/
inductive Course (i : Nat) (repository tag : String) : List Stage → Option Activity → Prop where
  | looks : Course i repository tag [] (some (.lookup repository tag))
  | unknown {stage : Stage} (e : RegistryError)
      (hears : stage.event = .act (.caller i) (.hears (.lookup repository tag) (.error e)) []
        (some (.deleted false)))
      (untouched : stage.after.cache = stage.before.cache) :
      Course i repository tag [stage] none
  | found {stage : Stage} (descriptor : Descriptor)
      (hears : stage.event = .act (.caller i) (.hears (.lookup repository tag) (.ok descriptor))
        [.removal repository descriptor.digest] none)
      (untouched : stage.after.cache = stage.before.cache) :
      Course i repository tag [stage] (some (.removal repository tag descriptor))
  | refused {own : List Stage} {descriptor : Descriptor} {stage : Stage} (e : RegistryError)
      (going : Course i repository tag own (some (.removal repository tag descriptor)))
      (hears : stage.event = .act (.caller i)
        (.hears (.removal repository tag descriptor) (.error e)) [] (some (.deleted false)))
      (untouched : stage.after.cache = stage.before.cache) :
      Course i repository tag (own ++ [stage]) none
  | removed {own : List Stage} {descriptor : Descriptor} {stage : Stage}
      (going : Course i repository tag own (some (.removal repository tag descriptor)))
      (hears : stage.event = .act (.caller i)
        (.hears (.removal repository tag descriptor) (.ok ())) [] (some (.deleted true)))
      (drops : stage.before.cache.Drops stage.after.cache repository tag) :
      Course i repository tag (own ++ [stage]) none
  | abandoned {own : List Stage} {activity : Activity} {stage : Stage}
      (going : Course i repository tag own (some activity))
      (quits : stage.event = .act (.caller i) (.quits activity) [] none)
      (untouched : stage.after.cache = stage.before.cache) :
      Course i repository tag (own ++ [stage]) none

variable {i : Nat} {repository tag : String} {own : List Stage}

theorem Course.hear {σ : Interleaving} {activity : Activity}
    (course : Course i repository tag own (some activity)) (stopped : Bool)
    (reply : activity.call.Reply) :
    let step := activity.receive σ.cache σ.now stopped reply
    Course i repository tag (own ++ [⟨σ, .act (.caller i) (.hears activity reply) step.begun
      step.next.outcome?, σ.serve i step⟩]) step.next.activity? := by
  cases course with
  | looks =>
    cases reply with
    | error e => exact .unknown e rfl rfl
    | ok descriptor => exact .found descriptor rfl rfl
  | found descriptor hears untouched =>
    cases reply with
    | error e => exact .refused e (.found descriptor hears untouched) rfl rfl
    | ok answer =>
      exact .removed (.found descriptor hears untouched) rfl ⟨rfl, TagStore.drops_remove ..⟩

theorem Course.quit {σ : Interleaving} {activity : Activity}
    (course : Course i repository tag own (some activity)) :
    let step := activity.cancel σ.cache
    Course i repository tag (own ++ [⟨σ, .act (.caller i) (.quits activity) step.begun step.next,
      σ.dismiss i step⟩]) none := by
  cases course with
  | looks => exact .abandoned .looks rfl rfl
  | found descriptor hears untouched =>
    exact .abandoned (.found descriptor hears untouched) rfl rfl

/-! ## What it amounts to -/

/-- What the moves of a deletion amount to: which descriptor its lookup has found and what it has
    returned, if it came to that. -/
structure Account (repository tag : String) (own : List Stage) (waiting : Option Activity)
    (found : Option Descriptor) (returned : Option Bool) : Prop where
  resolves : ∀ descriptor, found = some descriptor ↔
    ∃ stage ∈ own, stage.event.action? = some (.hears (.lookup repository tag) (.ok descriptor))
  /-- The one call beside the lookup asks for the removal of what was found. -/
  calls : own.flatMap (·.event.begun) =
    (found.map fun descriptor => Call.removal repository descriptor.digest).toList
  outcomes : own.filterMap (·.event.outcome?) = (returned.map Outcome.deleted).toList
  succeeds : returned = some true ↔ ∃ descriptor, found = some descriptor ∧
    ∃ stage ∈ own, stage.event.action? = some (.hears (.removal repository tag descriptor) (.ok ()))
  fails : returned = some false ↔
    (∃ e, ∃ stage ∈ own,
      stage.event.action? = some (.hears (.lookup repository tag) (.error e))) ∨
    ∃ descriptor e, found = some descriptor ∧ ∃ stage ∈ own,
      stage.event.action? = some (.hears (.removal repository tag descriptor) (.error e))
  ended : waiting = none ↔ returned ≠ none ∨
    ∃ activity, ∃ stage ∈ own, stage.event.action? = some (.quits activity)
  /-- No more than two replies are waited for. -/
  bounded : own.length + waiting.toList.length ≤ 2
  drops : ∀ stage ∈ own, stage.event.outcome? = some (.deleted true) →
    stage.before.cache.Drops stage.after.cache repository tag
  untouched : ∀ stage ∈ own, stage.event.outcome? ≠ some (.deleted true) →
    stage.after.cache = stage.before.cache

theorem Course.account {waiting : Option Activity} (course : Course i repository tag own waiting) :
    ∃ found returned, Account repository tag own waiting found returned := by
  cases course with
  | looks => exact ⟨none, none, by constructor <;> simp⟩
  | unknown e hears untouched =>
    refine ⟨none, some false, ?_⟩
    constructor <;> simp [Event.action?, Event.begun, Event.outcome?, hears, untouched]
  | found descriptor hears untouched =>
    refine ⟨some descriptor, none, ?_⟩
    constructor <;> simp [Event.action?, Event.begun, Event.outcome?, hears, untouched]
  | @refused _ descriptor _ e going hears untouched =>
    cases going with
    | found _ found untouched' =>
      refine ⟨some descriptor, some false, ?_⟩
      constructor <;>
        simp [Event.action?, Event.begun, Event.outcome?, found, hears, untouched, untouched']
  | @removed _ descriptor _ going hears drops =>
    cases going with
    | found _ found untouched =>
      refine ⟨some descriptor, some true, ?_⟩
      constructor <;> simp [Event.action?, Event.begun, Event.outcome?, found, hears, untouched, drops]
  | abandoned going quits untouched =>
    cases going with
    | looks =>
      refine ⟨none, none, ?_⟩
      constructor <;> simp [Event.action?, Event.begun, Event.outcome?, quits, untouched]
    | found descriptor found untouched' =>
      refine ⟨some descriptor, none, ?_⟩
      constructor <;>
        simp [Event.action?, Event.begun, Event.outcome?, found, quits, untouched, untouched']

end Deletion

namespace Interleaving

variable {σ σ₁ σ₂ : Interleaving} {stages : List Stage} {i : Nat} {repository tag : String}

/-- A caller that has begun a deletion and begins nothing else runs its course. -/
theorem Trace.deletes (trace : Trace σ stages σ₁)
    (looks : σ.callers i = some (.lookup repository tag))
    (only : ∀ stage ∈ stages, ∀ operation, stage.event.action? = some (.begins operation) →
      stage.event.party? ≠ some (.caller i)) :
    Deletion.Course i repository tag (movesOf (.caller i) stages) (σ₁.callers i) := by
  refine trace.course ?_ only (fun course => course.hear) fun course => course.quit
  rw [looks]
  exact .looks

/-- Where nobody else moves, the whole of what a deletion does to the cache is what its moves do. -/
theorem Trace.deletes_alone {found : Option Descriptor} {returned : Option Bool}
    {waiting : Option Activity} (trace : Trace σ stages σ₁)
    (account : Deletion.Account repository tag (movesOf (.caller i) stages) waiting found returned)
    (alone : ∀ stage ∈ stages, ∀ p, stage.event.party? = some p → p = .caller i) :
    (returned = some true → σ.cache.Drops σ₁.cache repository tag) ∧
      (returned ≠ some true → σ₁.cache = σ.cache) := by
  constructor
  · rintro rfl
    -- One move returns something, and no move before it or after it does.
    obtain ⟨before, stage, after, moves, silent, returns, quiet⟩ :=
      List.filterMap_eq_cons_iff.mp account.outcomes
    have drops := account.drops stage (by simp [moves]) returns
    have untouched : ∀ s ∈ before ++ after, s.after.cache = s.before.cache := by
      intro s member
      have nothing : s.event.outcome? = none := by
        rcases List.mem_append.mp member with earlier | later
        · exact silent s earlier
        · exact List.filterMap_eq_nil_iff.mp quiet s later
      refine account.untouched s ?_ (by simp [nothing])
      rw [moves]
      exact List.mem_append.mpr ((List.mem_append.mp member).imp_right (List.mem_cons_of_mem stage))
    obtain ⟨first, last⟩ := trace.cache_of_single moves alone untouched
    rwa [first, ← last] at drops
  · intro other
    refine trace.cache_of_alone alone fun stage member => account.untouched stage member ?_
    intro returns
    have among : .deleted true ∈ (movesOf (.caller i) stages).filterMap (·.event.outcome?) :=
      List.mem_filterMap.mpr ⟨stage, member, returns⟩
    rw [account.outcomes] at among
    cases returned with
    | none => cases among
    | some answer =>
      cases List.mem_singleton.mp among
      exact other rfl

/-- A deletion, among whatever else goes on, and what the caller does who has begun it.  It looks the tag
    up, once, and asks for a removal only if a descriptor was found: of its digest, in the same
    repository, once.  It returns true if both were answered with a success, and false as soon as one is
    answered with an error.  If it returns true, its last move drops every occurrence of the tag and does
    nothing else to the cache; no other move of it writes anything. -/
theorem deletion_exact {begun : List Call} {outcome : Option Outcome}
    (begins : Move σ (.act (.caller i) (.begins (.deleteTag repository tag)) begun outcome) σ₁)
    (trace : Trace σ₁ stages σ₂)
    (only : ∀ stage ∈ stages, ∀ operation, stage.event.action? = some (.begins operation) →
      stage.event.party? ≠ some (.caller i)) :
    (begun = [.lookup repository tag] ∧ outcome = none ∧ σ₁.cache = σ.cache) ∧
    ∃ found returned,
      Deletion.Account repository tag (movesOf (.caller i) stages) (σ₂.callers i) found returned ∧
      ((∀ stage ∈ stages, ∀ p, stage.event.party? = some p → p = .caller i) →
        (returned = some true → σ.cache.Drops σ₂.cache repository tag) ∧
        (returned ≠ some true → σ₂.cache = σ.cache)) := by
  cases begins with
  | begin free =>
    have looks : (σ.serve i (Operation.begin σ.cache σ.now (.deleteTag repository tag))).callers i =
        some (.lookup repository tag) := by
      simp [serve, Operation.begin, Progress.activity?]
    obtain ⟨found, returned, account⟩ := (trace.deletes looks only).account
    exact ⟨⟨rfl, rfl, rfl⟩, found, returned, account, trace.deletes_alone account⟩

/-- A tag is deleted that is listed twice, and in another repository as well; it takes a while until the
    removal is answered. -/
theorem deletion_exact_listed_twice :
    let tags := (TagStore.empty.insert "app" ["v1", "v2", "v1"]).insert "web" ["v1"]
    ∃ stages σ₁ σ₂,
      Move (idle { MetadataCache.fresh .standard with tags := tags } 0)
        (.act (.caller 0) (.begins (.deleteTag "app" "v1")) [.lookup "app" "v1"] none) σ₁ ∧
      Trace σ₁ stages σ₂ ∧
      Deletion.Account "app" "v1" (movesOf (.caller 0) stages) none
        (some ⟨"sha256:1", ociManifest⟩) (some true) ∧
      σ₂.cache.tags.get? "app" = some ["v2"] ∧ σ₂.cache.tags.get? "web" = some ["v1"] ∧
      tags.total = 4 ∧ σ₂.cache.tags.total = 2 := by
  intro tags
  let σ := idle { MetadataCache.fresh .standard with tags := tags } 0
  let σ₁ := σ.serve 0 (Operation.begin σ.cache σ.now (.deleteTag "app" "v1"))
  have begins : σ.Move (.act (.caller 0) (.begins (.deleteTag "app" "v1")) [.lookup "app" "v1"] none) σ₁ :=
    .begin rfl _
  have found := (Trace.refl (σ := σ₁)).step
    (.hear (i := 0) rfl false (.ok (⟨"sha256:1", ociManifest⟩ : Descriptor)))
  have removed := (found.step (.elapse _ 1000)).step (.hear (i := 0) rfl false (.ok ()))
  obtain ⟨-, found, returned, account, alone⟩ := deletion_exact begins removed
    (by simp [Event.action?])
  have resolved := account.resolves ⟨"sha256:1", ociManifest⟩ |>.mpr ⟨_, mem_movesOf_iff.mpr
    ⟨List.mem_append_left _ (List.mem_append_left _ (List.mem_singleton.mpr rfl)), rfl⟩, rfl⟩
  have succeeded := account.succeeds.mpr ⟨_, resolved, _, mem_movesOf_iff.mpr
    ⟨List.mem_append_right _ (List.mem_singleton.mpr rfl), rfl⟩, rfl⟩
  subst resolved succeeded
  have drops := (alone (by simp [Event.party?])).1 rfl
  refine ⟨_, _, _, begins, removed, account, drops.tags.own, drops.tags.others "web" (by decide),
    rfl, ?_⟩
  exact Nat.add_right_cancel (m := 2) drops.tags.total

end Interleaving

end RegistryCache
