import RegistryCache.Proofs.Interleaving.Traces
import RegistryCache.Proofs.TagStore

/-! # The course of a listing

Somebody who lists the tags of a repository is answered at once, from what is cached, or has them
fetched first.  The policy decides which, by rules of which the first that applies counts
(`RefreshPolicy.Fetches`).  A fetch that succeeds is cached before it is shown; one that fails shows
nothing, and leaves what was cached.  The main statement is
`Interleaving.listing_follows_precedence`.
-/

namespace RegistryCache

/-! ## The rules -/

namespace RefreshPolicy

/-- A listing is fetched if nothing is refreshed in the background, and otherwise if a list is cached
    that has no more tags than are fetched on every listing. -/
def Fetches (p : RefreshPolicy) (cached : Option (List String)) : Prop :=
  p.tagsInterval.toNat = 0 ∨
    ∃ tags ∈ cached, 0 < p.onlineMax.toNat ∧ tags.length ≤ p.onlineMax.toNat

instance (p : RefreshPolicy) (cached : Option (List String)) : Decidable (p.Fetches cached) :=
  inferInstanceAs (Decidable (_ ∨ ∃ tags ∈ cached, _))

theorem source_eq (p : RefreshPolicy) (cached : Option (List String)) :
    p.source (cached.map List.length) =
      if p.Fetches cached then .online else if cached.isSome then .cached else .notReady := by
  have off : p.background = false ↔ p.tagsInterval.toNat = 0 := by
    simp [background, UInt64.lt_iff_toNat_lt]
  have small (tags : List String) : p.fetchesOnline tags.length = true ↔
      0 < p.onlineMax.toNat ∧ tags.length ≤ p.onlineMax.toNat := by
    simp [fetchesOnline, UInt64.lt_iff_toNat_lt]
  unfold source Fetches
  cases background : p.background with
  | false => simp [off.mp background]
  | true =>
    have on : p.tagsInterval.toNat ≠ 0 := by simp [← off, background]
    cases cached with
    | none => simp [on]
    | some tags => simp [on, ← small]

end RefreshPolicy

/-! ## A list is stored -/

/-- A cache after a list has become the entry of a repository: nothing else has changed. -/
structure MetadataCache.Stores (cache cache' : MetadataCache) (repository : String)
    (tags : List String) : Prop where
  rest : cache' = { cache with tags := cache'.tags }
  own : cache'.tags.get? repository = some tags
  others : ∀ r, r ≠ repository → cache'.tags.get? r = cache.tags.get? r

theorem MetadataCache.stores_insert (cache : MetadataCache) (repository : String)
    (tags : List String) :
    cache.Stores { cache with tags := cache.tags.insert repository tags } repository tags where
  rest := rfl
  own := by simp [TagStore.get?_insert]
  others r other := by simp [TagStore.get?_insert, other.symm]

/-! ## The moves of a listing -/

namespace TagListing

open Interleaving

/-- What is shown without asking the registry: what is cached, or that nothing is known yet. -/
def ofCached (cached : Option (List String)) : TagListing :=
  cached.elim ⟨[], false⟩ fun tags => ⟨tags, true⟩

theorem eq_some_of_ofCached {cached : Option (List String)} {tags : List String}
    (shown : ofCached cached = ⟨tags, true⟩) : cached = some tags := by
  cases cached with
  | none => cases shown
  | some known =>
    cases shown
    rfl

theorem begin_of_fetches {cache : MetadataCache} {repository : String}
    (fetches : cache.policy.Fetches (cache.tags.get? repository)) (now : Instant) :
    (Operation.listTags repository).begin cache now =
      ⟨cache, [], [.tagList repository], .waiting (.tagListing repository)⟩ := by
  rw [Operation.begin, TagListing.begin, TagStore.count?, RefreshPolicy.source_eq, if_pos fetches]
  rfl

theorem begin_of_not_fetches {cache : MetadataCache} {repository : String}
    (served : ¬ cache.policy.Fetches (cache.tags.get? repository)) (now : Instant) :
    (Operation.listTags repository).begin cache now =
      ⟨cache, [], [], .done (.listing (ofCached (cache.tags.get? repository)))⟩ := by
  rw [Operation.begin, TagListing.begin, TagStore.count?, RefreshPolicy.source_eq, if_neg served]
  cases cache.tags.get? repository <;> rfl

/-- How the fetch for a listing comes to its end. -/
inductive Ends (i : Nat) (repository : String) (stage : Stage) : Prop
  | arrived (tags : List String)
      (hears : stage.event = .act (.caller i) (.hears (.tagListing repository) (.ok tags)) []
        (some (.listing ⟨tags, true⟩)))
      (stores : stage.before.cache.Stores stage.after.cache repository tags)
  | failed (e : RegistryError)
      (hears : stage.event = .act (.caller i) (.hears (.tagListing repository) (.error e)) []
        (some (.listing ⟨[], false⟩)))
      (untouched : stage.after.cache = stage.before.cache)
  | abandoned
      (quits : stage.event = .act (.caller i) (.quits (.tagListing repository)) [] none)
      (untouched : stage.after.cache = stage.before.cache)

/-- What a caller does whose listing is fetched, and what it waits for then. -/
inductive Course (i : Nat) (repository : String) : List Stage → Option Activity → Prop
  | waits : Course i repository [] (some (.tagListing repository))
  | ended {stage : Stage} (ends : Ends i repository stage) : Course i repository [stage] none

variable {i : Nat} {repository : String} {own : List Stage} {σ : Interleaving} {activity : Activity}

theorem Course.hear (course : Course i repository own (some activity)) (stopped : Bool)
    (reply : activity.call.Reply) :
    let step := activity.receive σ.cache σ.now stopped reply
    Course i repository (own ++ [⟨σ, .act (.caller i) (.hears activity reply) step.begun
      step.next.outcome?, σ.serve i step⟩]) step.next.activity? := by
  cases course with
  | waits =>
    cases reply with
    | error e => exact .ended (.failed e rfl rfl)
    | ok tags => exact .ended (.arrived tags rfl (σ.cache.stores_insert repository tags))

theorem Course.quit (course : Course i repository own (some activity)) :
    let step := activity.cancel σ.cache
    Course i repository (own ++ [⟨σ, .act (.caller i) (.quits activity) step.begun step.next,
      σ.dismiss i step⟩]) none := by
  cases course with
  | waits => exact .ended (.abandoned rfl rfl)

/-- Tags that have arrived are cached by then. -/
theorem Course.cached {waiting : Option Activity} {stage : Stage} {tags : List String}
    (course : Course i repository own waiting) (member : stage ∈ own)
    (shown : stage.event.outcome? = some (.listing ⟨tags, true⟩)) :
    stage.after.cache.tags.get? repository = some tags := by
  cases course with
  | waits => cases member
  | ended ends =>
    cases List.mem_singleton.mp member
    cases ends with
    | arrived arrived hears stores =>
      rw [hears] at shown
      cases shown
      exact stores.own
    | failed e hears =>
      rw [hears] at shown
      cases shown
    | abandoned quits =>
      rw [quits] at shown
      cases shown

end TagListing

namespace Interleaving

open TagListing (Course Ends ofCached)

variable {σ σ₁ σ₂ : Interleaving} {stages : List Stage} {i : Nat} {repository : String}

theorem Move.begins_listing {begun : List Call} {outcome : Option Outcome}
    (begins : Move σ (.act (.caller i) (.begins (.listTags repository)) begun outcome) σ₁) :
    let cached := σ.cache.tags.get? repository
    σ₁.cache = σ.cache ∧
    (σ.cache.policy.Fetches cached →
      begun = [.tagList repository] ∧ outcome = none ∧
        σ₁.callers i = some (.tagListing repository)) ∧
    (¬ σ.cache.policy.Fetches cached →
      begun = [] ∧ outcome = some (.listing (ofCached cached)) ∧ σ₁.callers i = none) := by
  intro cached
  cases begins with
  | begin free =>
    by_cases fetches : σ.cache.policy.Fetches cached
    · rw [TagListing.begin_of_fetches fetches]
      simp [fetches, serve, Progress.activity?, Progress.outcome?]
    · rw [TagListing.begin_of_not_fetches fetches]
      simp [fetches, cached, serve, Progress.activity?, Progress.outcome?]

/-- A caller that has sent for the tags of a listing and begins nothing else runs its course. -/
theorem Trace.lists_tags (trace : Trace σ stages σ₁)
    (waits : σ.callers i = some (.tagListing repository))
    (only : ∀ stage ∈ stages, ∀ operation, stage.event.action? = some (.begins operation) →
      stage.event.party? ≠ some (.caller i)) :
    Course i repository (movesOf (.caller i) stages) (σ₁.callers i) := by
  refine trace.course ?_ only (fun course => course.hear) fun course => course.quit
  rw [waits]
  exact .waits

theorem Trace.rests (trace : Trace σ stages σ₁) (free : σ.callers i = none)
    (only : ∀ stage ∈ stages, ∀ operation, stage.event.action? = some (.begins operation) →
      stage.event.party? ≠ some (.caller i)) :
    movesOf (.caller i) stages = [] ∧ σ₁.callers i = none :=
  trace.course (C := fun own waiting => own = [] ∧ waiting = none) ⟨rfl, free⟩ only nofun nofun

/-- A listing, among whatever else goes on, and what the caller does who has asked for it.  The registry is
    called if the rules say that it is fetched, once; otherwise it is not called, and what is cached is
    shown at once, or that nothing is known yet.  Tags that arrive are shown and are the entry of their
    repository from then on; if the call fails nothing is shown, and every entry stays.  So tags that are
    shown as known are those of the cache at that moment. -/
theorem listing_follows_precedence {begun : List Call} {outcome : Option Outcome}
    (begins : Move σ (.act (.caller i) (.begins (.listTags repository)) begun outcome) σ₁)
    (trace : Trace σ₁ stages σ₂)
    (only : ∀ stage ∈ stages, ∀ operation, stage.event.action? = some (.begins operation) →
      stage.event.party? ≠ some (.caller i)) :
    let cached := σ.cache.tags.get? repository
    let first : Stage := ⟨σ, .act (.caller i) (.begins (.listTags repository)) begun outcome, σ₁⟩
    let later := movesOf (.caller i) stages
    σ₁.cache = σ.cache ∧
    (σ.cache.policy.Fetches cached →
      begun = [.tagList repository] ∧ outcome = none ∧ Course i repository later (σ₂.callers i)) ∧
    (¬ σ.cache.policy.Fetches cached →
      begun = [] ∧ outcome = some (.listing (ofCached cached)) ∧ later = [] ∧ σ₂.callers i = none) ∧
    (∀ stage ∈ first :: later, ∀ tags, stage.event.outcome? = some (.listing ⟨tags, true⟩) →
      stage.after.cache.tags.get? repository = some tags) ∧
    ((∀ stage ∈ stages, ∀ p, stage.event.party? = some p → p = .caller i) →
      (later = [] → σ₂.cache = σ.cache) ∧
      ∀ stage, later = [stage] → stage.before.cache = σ.cache ∧ σ₂.cache = stage.after.cache) := by
  intro cached first later
  obtain ⟨still, fetched, served⟩ := begins.begins_listing
  have unmoved (alone : ∀ stage ∈ stages, ∀ p, stage.event.party? = some p → p = .caller i) :
      (later = [] → σ₂.cache = σ.cache) ∧
      ∀ stage, later = [stage] → stage.before.cache = σ.cache ∧ σ₂.cache = stage.after.cache := by
    rw [← still]
    constructor
    · intro nothing
      refine trace.cache_of_alone alone fun stage member => ?_
      rw [show movesOf (.caller i) stages = [] from nothing] at member
      cases member
    · intro stage one
      have single : movesOf (.caller i) stages = [] ++ stage :: [] := one
      exact trace.cache_of_single single alone fun _ member => absurd member List.not_mem_nil
  -- Which rule applies is settled when the listing begins; what others cache later does not matter.
  by_cases fetches : σ.cache.policy.Fetches cached
  · obtain ⟨calls, pending, waits⟩ := fetched fetches
    have course := trace.lists_tags waits only
    refine ⟨still, fun _ => ⟨calls, pending, course⟩, absurd fetches, ?_, unmoved⟩
    intro stage member tags shown
    obtain rfl | member := List.mem_cons.mp member
    · rw [Event.outcome?, pending] at shown
      cases shown
    · exact course.cached member shown
  · obtain ⟨calls, shown, free⟩ := served fetches
    obtain ⟨nothing, rests⟩ := trace.rests free only
    refine ⟨still, fun fetched => absurd fetched fetches, fun _ => ⟨calls, shown, nothing, rests⟩, ?_,
      unmoved⟩
    intro stage member tags known
    obtain rfl : stage = first := by simpa [later, nothing] using member
    rw [Event.outcome?, shown] at known
    dsimp only [first]
    rw [still]
    exact TagListing.eq_some_of_ofCached (by simpa using known)

/-- Two tags are cached of `app`, as many as are fetched on every listing, and three of `web`.  The first
    is fetched, which takes a while and fails; the second is shown as it is. -/
theorem listing_follows_precedence_at_limit :
    let tags := (TagStore.empty.insert "app" ["v1", "v2"]).insert "web" ["v1", "v2", "v3"]
    let σ := idle { MetadataCache.fresh ⟨10, 60, 2⟩ with tags := tags } 0
    (∃ stages σ₁ σ₂,
      Move σ (.act (.caller 0) (.begins (.listTags "app")) [.tagList "app"] none) σ₁ ∧
      Trace σ₁ stages σ₂ ∧
      (movesOf (.caller 0) stages).filterMap (·.event.outcome?) = [.listing ⟨[], false⟩] ∧
      σ₂.cache = σ.cache) ∧
    ∃ σ₁, Move σ (.act (.caller 1) (.begins (.listTags "web")) []
        (some (.listing ⟨["v1", "v2", "v3"], true⟩))) σ₁ ∧
      σ₁.cache.tags.get? "web" = some ["v1", "v2", "v3"] := by
  intro tags σ
  have small : σ.cache.policy.Fetches (σ.cache.tags.get? "app") := by decide
  have large : ¬ σ.cache.policy.Fetches (σ.cache.tags.get? "web") := by decide
  constructor
  · let σ₁ := σ.serve 0 (Operation.begin σ.cache σ.now (.listTags "app"))
    have begins : σ.Move (.act (.caller 0) (.begins (.listTags "app")) [.tagList "app"] none) σ₁ :=
      .begin rfl _
    have failed := ((Trace.refl (σ := σ₁)).step (.elapse _ 1000)).step
      (.hear (i := 0) rfl false (.error (⟨.timeout, "late"⟩ : RegistryError)))
    obtain ⟨-, -, -, -, alone⟩ := listing_follows_precedence begins failed (by simp [Event.action?])
    obtain ⟨before, after⟩ := (alone (by simp [Event.party?])).2 _ rfl
    exact ⟨_, σ₁, _, begins, failed, rfl, after.trans before⟩
  · let step := Operation.begin σ.cache σ.now (.listTags "web")
    have served : step = ⟨σ.cache, [], [], .done (.listing ⟨["v1", "v2", "v3"], true⟩)⟩ :=
      TagListing.begin_of_not_fetches large σ.now
    have begins : σ.Move (.act (.caller 1) (.begins (.listTags "web")) []
        (some (.listing ⟨["v1", "v2", "v3"], true⟩))) (σ.serve 1 step) := by
      have begins := Move.begin (σ := σ) (i := 1) rfl (.listTags "web")
      rwa [show Operation.begin σ.cache σ.now (.listTags "web") = _ from served] at begins
    obtain ⟨-, -, -, known, -⟩ := listing_follows_precedence begins .refl
      fun _ member => absurd member List.not_mem_nil
    exact ⟨_, begins, known _ List.mem_cons_self _ rfl⟩

end Interleaving

end RegistryCache
