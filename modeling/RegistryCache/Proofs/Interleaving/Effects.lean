import RegistryCache.Proofs.Interleaving.Basic

/-! # What moves do to the cache

Only replies change what is cached: the last page of a walk the catalog, a list of tags one entry of
the store, the end of a deletion one tag of it.  Everything else that happens leaves the cache as it
is, up to the record of the tags job (`MetadataCache.withoutTagsJob`).  The main statements are
`Move.tags_eq`, `Move.catalog_eq` and `Move.catalog_commit`.
-/

namespace RegistryCache

/-! ## Steps of a catalog walk -/

namespace CatalogWalk

@[simp] theorem cache_begin (cache : MetadataCache) (now : Instant) :
    (CatalogWalk.begin cache now).cache = cache := rfl

@[simp] theorem begun_begin (cache : MetadataCache) (now : Instant) :
    (CatalogWalk.begin cache now).begun = [.catalogPage none] := rfl

@[simp] theorem next_begin (cache : MetadataCache) (now : Instant) :
    (CatalogWalk.begin cache now).next = .waiting ⟨now, none, []⟩ := rfl

@[simp] theorem cache_fail (cache : MetadataCache) (e : RegistryError) :
    (fail cache e).cache = cache := rfl

@[simp] theorem next_fail (cache : MetadataCache) (e : RegistryError) :
    (fail cache e).next = .done (if cache.catalog.ready then .ok .keptStale
      else .error ⟨.catalogUnavailable, e.message⟩) := rfl

/-- A reply ends a walk with a failure, leads it to another page, or completes it. -/
theorem receive_cases (w : CatalogWalk) (cache : MetadataCache) (now : Instant)
    (reply : Except RegistryError CatalogPage) :
    (∃ notices e, (∀ page, reply = .ok page → page.next ≠ none ∧ page.next = w.cursor) ∧
      w.receive cache now reply = { fail cache e with notices := notices }) ∨
    (∃ notices page cursor, reply = .ok page ∧ page.next = some cursor ∧ w.cursor ≠ some cursor ∧
      w.receive cache now reply =
        { request ⟨w.started, some cursor, w.gathered ++ page.repositories⟩ cache with
          notices := notices }) ∨
    (∃ notices page, reply = .ok page ∧ page.next = none ∧
      w.receive cache now reply =
        { complete cache now w.started (w.gathered ++ page.repositories) with
          notices := notices }) := by
  cases reply with
  | error e => exact .inl ⟨_, e, by simp, rfl⟩
  | ok page =>
    simp only [receive, nextCursor]
    cases next : page.next with
    | none => exact .inr (.inr ⟨_, page, rfl, next, rfl⟩)
    | some cursor =>
      -- a page that names the cursor it was asked for with fails the walk
      by_cases stuck : w.cursor = some cursor
      · exact .inl ⟨_, _, by simp [next, stuck], by simp only [if_pos stuck]; rfl⟩
      · exact .inr (.inl ⟨_, page, cursor, rfl, next, stuck, by simp only [if_neg stuck]; rfl⟩)

end CatalogWalk

/-! ## Steps of fetches and passes -/

namespace MetadataCache

/-- The cache without the record of the tags job. -/
def withoutTagsJob (cache : MetadataCache) : MetadataCache := { cache with tagsJob := none }

section
variable {cache cache' : MetadataCache} (same : cache'.withoutTagsJob = cache.withoutTagsJob)
include same

theorem tags_eq_of_withoutTagsJob : cache'.tags = cache.tags := by
  have equal := congrArg MetadataCache.tags same
  exact equal

theorem catalog_eq_of_withoutTagsJob : cache'.catalog = cache.catalog := by
  have equal := congrArg MetadataCache.catalog same
  exact equal

theorem catalogJob_eq_of_withoutTagsJob : cache'.catalogJob = cache.catalogJob := by
  have equal := congrArg MetadataCache.catalogJob same
  exact equal

end

end MetadataCache

/-- Only the tags change with the reply to a fetch, and only if it has some. -/
theorem TagFetch.cache_receive (repository : String) (cache : MetadataCache)
    (reply : Except RegistryError (List String)) :
    (TagFetch.receive repository cache reply).cache =
      { cache with tags := match reply with
          | .ok tags => cache.tags.insert repository tags
          | .error _ => cache.tags } := by
  cases reply <;> rfl

@[simp] theorem TagFetch.begun_receive (repository : String) (cache : MetadataCache)
    (reply : Except RegistryError (List String)) :
    (TagFetch.receive repository cache reply).begun = [] := by
  cases reply <;> rfl

namespace PassTally

/-- A pass that goes on writes nothing, and one that is over at most the record of its job. -/
theorem visit_withoutTagsJob (t : PassTally) (cache : MetadataCache) (now : Instant)
    (stopped : Bool) (repositories : List String) :
    (t.visit cache now stopped repositories).cache.withoutTagsJob = cache.withoutTagsJob := by
  cases repositories with
  | nil => rfl
  | cons repository rest => cases stopped <;> rfl

/-- A pass that is to stop makes no call, and writes nothing if there is something left to visit. -/
theorem visit_stopped (t : PassTally) (cache : MetadataCache) (now : Instant)
    (repositories : List String) :
    (t.visit cache now true repositories).begun = [] ∧
      (∃ outcome, (t.visit cache now true repositories).next = .done outcome) ∧
      (repositories ≠ [] → (t.visit cache now true repositories).cache = cache) := by
  cases repositories with
  | nil => exact ⟨rfl, ⟨_, rfl⟩, fun nonempty => absurd rfl nonempty⟩
  | cons repository rest => exact ⟨rfl, ⟨_, rfl⟩, fun _ => rfl⟩

/-- The call that a pass begins is the one it then waits for. -/
theorem visit_begun (t : PassTally) (cache : MetadataCache) (now : Instant) (stopped : Bool)
    (repositories : List String) :
    (t.visit cache now stopped repositories).begun =
      ((t.visit cache now stopped repositories).next.activity?.map TagPass.call).toList := by
  cases repositories with
  | nil => rfl
  | cons repository rest => cases stopped <;> rfl

end PassTally

@[simp] theorem TagPass.cache_cancel (pass : TagPass) (cache : MetadataCache) :
    (pass.cancel cache).cache = cache := rfl

@[simp] theorem TagPass.begun_cancel (pass : TagPass) (cache : MetadataCache) :
    (pass.cancel cache).begun = [] := rfl

/-! ## Replies and all else -/

namespace Action

/-- The tags after an action: an arriving list replaces the entry of its repository, and a completed
    deletion takes its tag out. -/
def onTags (action : Action) (store : TagStore) : TagStore :=
  match action.fetched?, action.deleted? with
  | some (repository, tags), _ => store.insert repository tags
  | none, some (repository, tag) => store.remove repository tag
  | none, none => store

def CompletesWalk (action : Action) : Prop :=
  ∃ cursor page, action.page? = some (cursor, page) ∧ page.next = none

end Action

namespace Activity

variable (cache : MetadataCache) (now : Instant) (stopped : Bool)

theorem receive_tags (activity : Activity) (reply : activity.call.Reply) :
    (activity.receive cache now stopped reply).cache.tags =
      (Action.hears activity reply).onTags cache.tags := by
  cases activity with
  | catalogWalk walk =>
    -- however the walk goes on, it leaves the tags alone
    have silent : (Action.hears (.catalogWalk walk) reply).onTags cache.tags = cache.tags := by
      cases reply <;> rfl
    rw [silent]
    obtain ⟨_, _, _, equal⟩ | ⟨_, _, _, _, _, _, equal⟩ | ⟨_, _, _, _, equal⟩ :=
      walk.receive_cases cache now reply <;>
    · simp only [receive, Step.cache_map, equal]
      rfl
  | tagFetch repository | tagListing repository => cases reply <;> rfl
  | tagPass pass =>
    simp only [receive, TagPass.receive, Step.cache_map, Step.cache_andThen]
    -- the fetch writes its entry, and going on with the pass at most the record of the job
    rw [MetadataCache.tags_eq_of_withoutTagsJob (PassTally.visit_withoutTagsJob ..),
      TagFetch.cache_receive]
    cases reply <;> rfl
  | lookup repository tag => cases reply <;> rfl
  | removal repository tag descriptor => cases reply <;> rfl

/-- Only the last page of a walk changes what is known of the catalog. -/
theorem receive_catalog (activity : Activity) (reply : activity.call.Reply)
    (unfinished : ¬ (Action.hears activity reply).CompletesWalk) :
    (activity.receive cache now stopped reply).cache.catalog = cache.catalog ∧
      (activity.receive cache now stopped reply).cache.catalogJob = cache.catalogJob := by
  cases activity with
  | catalogWalk walk =>
    obtain ⟨_, _, _, equal⟩ | ⟨_, _, _, _, _, _, equal⟩ | ⟨_, page, rfl, last, _⟩ :=
      walk.receive_cases cache now reply
    · simp only [receive, Step.cache_map, equal]
      exact ⟨rfl, rfl⟩
    · simp only [receive, Step.cache_map, equal]
      exact ⟨rfl, rfl⟩
    · exact absurd ⟨walk.cursor, page, rfl, last⟩ unfinished
  | tagFetch repository | tagListing repository => cases reply <;> exact ⟨rfl, rfl⟩
  | tagPass pass =>
    simp only [receive, TagPass.receive, Step.cache_map, Step.cache_andThen]
    -- going on with the pass writes at most the record of the job
    have same := PassTally.visit_withoutTagsJob
      (pass.tally.count (TagFetch.receive pass.current cache reply).next)
      (TagFetch.receive pass.current cache reply).cache now stopped pass.rest
    rw [MetadataCache.catalog_eq_of_withoutTagsJob same,
      MetadataCache.catalogJob_eq_of_withoutTagsJob same, TagFetch.cache_receive]
    exact ⟨rfl, rfl⟩
  | lookup repository tag => cases reply <;> exact ⟨rfl, rfl⟩
  | removal repository tag descriptor => cases reply <;> exact ⟨rfl, rfl⟩

/-- The last page of a walk: the cache takes over all that the walk has gathered. -/
theorem receive_last {walk : CatalogWalk} {page : CatalogPage} (last : page.next = none) :
    ((Activity.catalogWalk walk).receive cache now stopped (.ok page)).cache =
      { cache with
        catalog := (cache.catalog.commit (walk.gathered ++ page.repositories)).1
        catalogJob := some (.ofRun walk.started now) } := by
  simp only [receive, CatalogWalk.receive, nextCursor, last]
  rfl

end Activity

theorem Operation.begin_withoutTagsJob (cache : MetadataCache) (now : Instant)
    (operation : Operation) :
    (operation.begin cache now).cache.withoutTagsJob = cache.withoutTagsJob := by
  cases operation with
  | refreshCatalog | fetchTags | deleteTag => rfl
  | listTags repository =>
    simp only [Operation.begin, TagListing.begin]
    split <;> rfl
  | refreshTags stopped => exact PassTally.visit_withoutTagsJob ..

theorem Activity.cache_cancel (cache : MetadataCache) (activity : Activity) :
    (activity.cancel cache).cache = cache := by
  cases activity <;> rfl

/-! ## Turns of a scheduler -/

namespace Scheduler

variable (s : Scheduler) (latency : Call → Nat) (cache : MetadataCache) (now : Instant)

@[simp] theorem cache_leave : (s.leave cache).cache = cache := by
  unfold leave; split <;> rfl

@[simp] theorem begun_leave : (s.leave cache).begun = [] := by
  unfold leave; split <;> rfl

@[simp] theorem cache_afterRefresh : (s.afterRefresh cache now).cache = cache := by
  unfold afterRefresh pauseCatalog
  repeat' split
  all_goals simp

@[simp] theorem begun_afterRefresh : (s.afterRefresh cache now).begun = [] := by
  unfold afterRefresh pauseCatalog
  repeat' split
  all_goals simp

@[simp] theorem cache_takeWalk (going : CatalogWalk.Going) :
    (s.takeWalk latency cache now going).cache = cache := by
  unfold takeWalk; split <;> simp

@[simp] theorem begun_takeWalk (going : CatalogWalk.Going) :
    (s.takeWalk latency cache now going).begun = [] := by
  unfold takeWalk; split <;> simp

@[simp] theorem cache_settleCatalog : (s.settleCatalog latency cache now).cache = cache := by
  unfold settleCatalog beginRefresh
  repeat' split
  all_goals simp

@[simp] theorem cache_settleJoin : (s.settleJoin cache).cache = cache := by
  unfold settleJoin; split <;> simp

@[simp] theorem begun_settleJoin : (s.settleJoin cache).begun = [] := by
  unfold settleJoin; split <;> simp

@[simp] theorem cache_afterPass : (s.afterPass cache now).cache = cache := by
  unfold afterPass; repeat' split
  all_goals simp

@[simp] theorem begun_afterPass : (s.afterPass cache now).begun = [] := by
  unfold afterPass; repeat' split
  all_goals simp

@[simp] theorem cache_takePass (going : Progress TagPass PassOutcome) :
    (s.takePass latency cache now going).cache = cache := by
  unfold takePass; split <;> simp

@[simp] theorem begun_takePass (going : Progress TagPass PassOutcome) :
    (s.takePass latency cache now going).begun = [] := by
  unfold takePass; split <;> simp

theorem settleTags_withoutTagsJob :
    (s.settleTags latency cache now).cache.withoutTagsJob = cache.withoutTagsJob := by
  have begins : (s.beginPass latency cache now).cache.withoutTagsJob = cache.withoutTagsJob := by
    simp only [beginPass, TagPass.begin, Step.cache_andThen, cache_takePass, Step.cache_after]
    exact PassTally.visit_withoutTagsJob ..
  unfold settleTags
  split
  · exact begins
  · split <;> simp
  · repeat' split
    · rfl
    · exact begins
    · rfl
  · rfl
  · rfl

@[simp] theorem cache_receivePage (walk : CatalogWalk) (reply : Except RegistryError CatalogPage) :
    (s.receivePage walk latency cache now reply).cache = (walk.receive cache now reply).cache := by
  simp [receivePage]

@[simp] theorem cache_receiveTags (pass : TagPass)
    (reply : Except RegistryError (List String)) :
    (s.receiveTags pass latency cache now reply).cache =
      (pass.receive cache now s.stopped reply).cache := by
  simp [receiveTags]

end Scheduler

/-- A turn with a reply does to the cache what the reply does to the activity that waited for it;
    any other turn writes at most the record of the tags job. -/
theorem Scheduler.Turn.cache_cases {s : Scheduler} {cache : MetadataCache} {now : Instant}
    {role : Role} {action : Action} {step : Step Scheduler}
    (turn : s.Turn cache now role action step) :
    (∃ activity reply stopped, action = .hears activity reply ∧ s.activity? role = some activity ∧
      step.cache = (Activity.receive cache now stopped activity reply).cache) ∨
    ((∀ activity reply, action ≠ .hears activity reply) ∧
      step.cache.withoutTagsJob = cache.withoutTagsJob) := by
  cases turn with
  | runCatalog latency => exact .inr ⟨by simp, by simp⟩
  | join => exact .inr ⟨by simp, by simp⟩
  | runTags latency => exact .inr ⟨by simp, s.settleTags_withoutTagsJob latency cache now⟩
  | @page walk due waiting going latency reply =>
    exact .inl ⟨_, reply, false, rfl, by simp [activity?, waiting], by simp [Activity.receive]⟩
  | @tags pass due waiting going latency reply =>
    exact .inl ⟨_, reply, s.stopped, rfl, by simp [activity?, waiting], by simp [Activity.receive]⟩

/-! ## Moves -/

namespace Interleaving

variable {σ σ' : Interleaving} {e : Event}

/-- A move changes the cache as a reply does that a party waited for, or it writes at most the record
    of the tags job. -/
theorem Move.cache_cases (move : Move σ e σ') :
    (∃ p activity reply begun outcome stopped, e = .act p (.hears activity reply) begun outcome ∧
      σ.activity? p = some activity ∧
      σ'.cache = (Activity.receive σ.cache σ.now stopped activity reply).cache) ∨
    ((∀ activity reply, e.action? ≠ some (.hears activity reply)) ∧
      σ'.cache.withoutTagsJob = σ.cache.withoutTagsJob) := by
  cases move with
  | elapse | start | stop => exact .inr ⟨by simp [Event.action?], rfl⟩
  | begin free operation =>
    exact .inr ⟨by simp [Event.action?], operation.begin_withoutTagsJob σ.cache σ.now⟩
  | @hear i activity waiting stopped reply =>
    exact .inl ⟨.caller i, activity, reply, _, _, stopped, rfl, waiting, rfl⟩
  | @quit i activity waiting =>
    exact .inr ⟨by simp [Event.action?], by simp [dismiss, activity.cache_cancel]⟩
  | @loop j s role action step present turn =>
    obtain ⟨activity, reply, stopped, rfl, waiting, equal⟩ | ⟨silent, same⟩ := turn.cache_cases
    · exact .inl ⟨.loop role j, activity, reply, _, _, stopped, rfl,
        by simp [Interleaving.activity?, present, waiting], equal⟩
    · exact .inr ⟨by simpa [Event.action?] using silent, same⟩

theorem Move.tags_eq (move : Move σ e σ') :
    σ'.cache.tags = (e.action?.elim id Action.onTags) σ.cache.tags := by
  obtain ⟨p, activity, reply, begun, outcome, stopped, rfl, _, equal⟩ | ⟨silent, same⟩ :=
    move.cache_cases
  · rw [equal, Activity.receive_tags]
    rfl
  · rw [MetadataCache.tags_eq_of_withoutTagsJob same]
    cases e with
    | act p action begun outcome =>
      cases action with
      | hears activity reply => exact absurd rfl (silent activity reply)
      | begins | quits | runs | joins => rfl
    | elapse | start | stop => rfl

/-- Unless a move completes a walk, what is known of the catalog stays as it was. -/
theorem Move.catalog_eq (move : Move σ e σ')
    (unfinished : ∀ action, e.action? = some action → ¬ action.CompletesWalk) :
    σ'.cache.catalog = σ.cache.catalog ∧ σ'.cache.catalogJob = σ.cache.catalogJob := by
  obtain ⟨p, activity, reply, begun, outcome, stopped, rfl, _, equal⟩ | ⟨_, same⟩ :=
    move.cache_cases
  · rw [equal]
    exact Activity.receive_catalog _ _ _ activity reply (unfinished _ rfl)
  · exact ⟨MetadataCache.catalog_eq_of_withoutTagsJob same,
      MetadataCache.catalogJob_eq_of_withoutTagsJob same⟩

/-- The last page of a walk: all that the walk has gathered is taken over. -/
theorem Move.catalog_commit {p : Party} {action : Action} {begun : List Call}
    {outcome : Option Outcome} {cursor : Option String} {page : CatalogPage}
    (move : Move σ (.act p action begun outcome) σ') (brings : action.page? = some (cursor, page))
    (last : page.next = none) :
    ∃ walk, σ.activity? p = some (.catalogWalk walk) ∧ walk.cursor = cursor ∧
      σ'.cache.catalog = (σ.cache.catalog.commit (walk.gathered ++ page.repositories)).1 ∧
      σ'.cache.catalogJob = some (.ofRun walk.started σ.now) := by
  obtain ⟨_, activity, reply, _, _, stopped, same, waiting, equal⟩ | ⟨silent, _⟩ :=
    move.cache_cases
  · cases same
    cases activity with
    | catalogWalk walk =>
      cases reply with
      | error e => cases brings
      | ok arrived =>
        cases brings
        rw [equal, Activity.receive_last _ _ _ last]
        exact ⟨walk, waiting, rfl, rfl, rfl⟩
    | tagFetch | tagListing | tagPass | lookup | removal => cases brings
  · cases action with
    | hears activity reply => exact absurd rfl (silent activity reply)
    | begins | quits | runs | joins => cases brings

theorem Move.ready (move : Move σ e σ') (ready : σ.cache.catalog.ready = true) :
    σ'.cache.catalog.ready = true := by
  -- only a walk that is completed writes the catalog, and what it writes is ready
  by_cases completes : ∃ action, e.action? = some action ∧ action.CompletesWalk
  · obtain ⟨action, same, cursor, page, brings, last⟩ := completes
    cases e with
    | act p action' begun outcome =>
      cases same
      obtain ⟨walk, _, _, equal, _⟩ := move.catalog_commit brings last
      rw [equal, Catalog.commit_ready]
    | elapse | start | stop => cases same
  · rw [(move.catalog_eq fun action same completed => completes ⟨action, same, completed⟩).1, ready]

end Interleaving

end RegistryCache
