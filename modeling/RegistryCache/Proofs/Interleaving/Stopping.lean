import RegistryCache.Proofs.Interleaving.Loops

/-! # Loops that are asked to stop

Wherever a stop request finds the loops, each of them needs one turn to leave, and the catalog loop
one more to see that the tag loop has left.  None of these turns needs time to pass, and none begins a
call (`Scheduler.Turn.silent`).  Once both loops are over, nothing that is left of them ever does
anything (`Scheduler.Turn.idle`).
-/

namespace RegistryCache

namespace Scheduler

def Over (s : Scheduler) : Prop := s.catalogLoop.Over ∧ s.tagLoop.Over

/-- The catalog loop reads nothing any more: it has ended, or waits for the tag loop to end. -/
def Leaving (s : Scheduler) : Prop := s.catalogLoop = .joining ∨ s.catalogLoop.Over

variable {s : Scheduler} (latency : Call → Nat) (cache : MetadataCache) (now : Instant)

/-! ## One turn of each loop -/

theorem leaving_settleCatalog (asked : s.stopped = true) :
    (s.settleCatalog latency cache now).next.Leaving ∧
      (s.settleCatalog latency cache now).begun = [] := by
  obtain ⟨equal, left⟩ | ⟨_, _, equal⟩ | ⟨_, _, equal⟩ | ⟨going, _⟩ :=
    s.settleCatalog_cases latency cache now
  · rw [equal]
    exact ⟨left asked, rfl⟩
  · rw [equal]
    refine ⟨?_, s.begun_leave cache⟩
    obtain ⟨_, ended⟩ | ⟨_, joining⟩ := s.leave_next cache
    · rw [ended]
      exact .inr ⟨_, rfl⟩
    · rw [joining, asked]
      exact .inl rfl
  · rw [equal]
    exact ⟨.inl rfl, rfl⟩
  · rw [asked] at going
    cases going

/-- A pass that begins after the stop request makes no call.  If there is something to visit it is
    given up; over an empty catalog it is complete as it begins. -/
theorem beginPass_stopped (asked : s.stopped = true) :
    (s.beginPass latency cache now).next.tagLoop.Over ∧
      (s.beginPass latency cache now).begun = [] ∧
      (cache.catalog.repositories ≠ [] → (s.beginPass latency cache now).cache = cache) := by
  obtain ⟨silent, ⟨outcome, done⟩, untouched⟩ :=
    PassTally.visit_stopped ⟨now, cache.catalog.repositories.length, 0, 0⟩ cache now
      cache.catalog.repositories
  have finished : (TagPass.begin cache now s.stopped).next.activity? = none := by
    rw [asked, TagPass.begin, Step.next_after, done]
    rfl
  -- a pass that is over as it begins lets the loop end
  obtain ⟨loop, _, moved, _, ended⟩ := s.takePass_next latency
    (TagPass.begin cache now s.stopped).cache now (TagPass.begin cache now s.stopped).next
  refine ⟨?_, ?_, ?_⟩
  · rw [beginPass, Step.next_andThen, moved]
    exact .inr (ended asked finished)
  · rw [beginPass, Step.begun_andThen, begun_takePass, List.append_nil, asked]
    exact silent
  · intro nonempty
    rw [beginPass, Step.cache_andThen, cache_takePass, asked]
    exact untouched nonempty

theorem over_settleTags (asked : s.stopped = true) :
    (s.settleTags latency cache now).next.tagLoop.Over ∧
      (s.settleTags latency cache now).begun = [] ∧
      ((s.settleTags latency cache now).cache = cache ∨
        s.tagLoop = .spawned ∧ cache.catalog.repositories = []) := by
  obtain ⟨equal, finished⟩ | ⟨_, _, untouched, silent, equal⟩ | ⟨begins, equal⟩ :=
    s.settleTags_cases latency cache now
  · rw [equal]
    exact ⟨finished asked, rfl, .inl rfl⟩
  · rw [equal]
    exact ⟨.inr rfl, silent, .inl untouched⟩
  · -- a loop that was asked to stop begins no pass after its first
    have spawned : s.tagLoop = .spawned := by
      obtain spawned | ⟨going, _⟩ := begins
      · exact spawned
      · rw [asked] at going
        cases going
    obtain ⟨finished, silent, untouched⟩ := beginPass_stopped latency cache now asked
    rw [equal]
    refine ⟨finished, silent, ?_⟩
    by_cases empty : cache.catalog.repositories = []
    · exact .inr ⟨spawned, empty⟩
    · exact .inl (untouched empty)

/-- With the tag loop over, a catalog loop that waits for it finds it ended: it would not wait for a
    loop that was never started. -/
theorem over_settleJoin (ordered : s.Ordered cache) (leaving : s.Leaving) (finished : s.tagLoop.Over) :
    (s.settleJoin cache).next.Over := by
  obtain ⟨_, _, equal⟩ | ⟨apart, equal⟩ := s.settleJoin_cases cache
  · rw [equal]
    exact ⟨⟨_, rfl⟩, finished⟩
  · rw [equal]
    obtain joining | ended := leaving
    · obtain absent | ended := finished
      · exact absurd absent (ordered.waits (.inl joining))
      · exact absurd ⟨joining, ended⟩ apart
    · exact ⟨ended, finished⟩

/-! ## Any number of turns -/

namespace Turn

variable {cache now} {role : Role} {action : Action} {step : Step Scheduler}

theorem leaving (turn : s.Turn cache now role action step) (asked : s.stopped = true)
    (leaving : s.Leaving) : step.next.Leaving := by
  cases turn with
  | runCatalog latency => exact (leaving_settleCatalog latency cache now asked).1
  | join =>
    obtain ⟨_, _, equal⟩ | ⟨_, equal⟩ := s.settleJoin_cases cache
    · rw [equal]
      exact .inr ⟨_, rfl⟩
    · rw [equal]
      exact leaving
  | runTags latency =>
    have spared : (s.settleTags latency cache now).next.catalogLoop = s.catalogLoop :=
      (runTags latency : s.Turn cache now .tags .runs _).frame.2
    rw [Leaving, spared]
    exact leaving
  | page _ going | tags _ going =>
    rw [asked] at going
    cases going

theorem tagsOver (turn : s.Turn cache now role action step) (asked : s.stopped = true)
    (finished : s.tagLoop.Over) : step.next.tagLoop.Over := by
  obtain ⟨_, spared⟩ := turn.frame
  cases role with
  | catalog =>
    -- a catalog loop that was asked to stop starts no tag loop
    obtain same | ⟨going, _⟩ := spared
    · rw [same]
      exact finished
    · rw [asked] at going
      cases going
  | tags =>
    cases turn with
    | runTags latency => exact (over_settleTags latency cache now asked).1
    | tags _ going =>
      rw [asked] at going
      cases going

/-- After the stop request a turn begins no call and writes nothing, except that a tag loop that has
    not run yet records an empty pass over an empty catalog. -/
theorem silent (turn : s.Turn cache now role action step) (asked : s.stopped = true) :
    step.begun = [] ∧ step.cache.withoutTagsJob = cache.withoutTagsJob ∧
      (step.cache = cache ∨
        role = .tags ∧ s.tagLoop = .spawned ∧ cache.catalog.repositories = []) := by
  cases turn with
  | runCatalog latency =>
    exact ⟨(leaving_settleCatalog latency cache now asked).2, by rw [cache_settleCatalog],
      .inl (s.cache_settleCatalog latency cache now)⟩
  | join =>
    exact ⟨s.begun_settleJoin cache, by rw [cache_settleJoin], .inl (s.cache_settleJoin cache)⟩
  | runTags latency =>
    obtain ⟨_, silent, written⟩ := over_settleTags latency cache now asked
    refine ⟨silent, s.settleTags_withoutTagsJob latency cache now, ?_⟩
    obtain untouched | ⟨spawned, empty⟩ := written
    · exact .inl untouched
    · exact .inr ⟨rfl, spawned, empty⟩
  | page _ going | tags _ going =>
    rw [asked] at going
    cases going

theorem idle (turn : s.Turn cache now role action step) (finished : s.Over) :
    step.begun = [] ∧ step.cache = cache ∧ step.next = s := by
  obtain ⟨⟨result, ended⟩, tagsOver⟩ := finished
  cases turn with
  | runCatalog latency =>
    have equal : s.settleCatalog latency cache now = .pure cache s := by
      rw [settleCatalog, ended]
    rw [equal]
    exact ⟨rfl, rfl, rfl⟩
  | join =>
    have equal : s.settleJoin cache = .pure cache s := by
      rw [settleJoin, ended]
    rw [equal]
    exact ⟨rfl, rfl, rfl⟩
  | runTags latency =>
    have equal : s.settleTags latency cache now = .pure cache s := by
      obtain absent | tagsEnded := tagsOver
      · rw [settleTags, absent]
      · rw [settleTags, tagsEnded]
    rw [equal]
    exact ⟨rfl, rfl, rfl⟩
  | page waiting =>
    rw [ended] at waiting
    cases waiting
  | tags waiting =>
    obtain absent | tagsEnded := tagsOver
    · rw [absent] at waiting
      cases waiting
    · rw [tagsEnded] at waiting
      cases waiting

end Turn

theorem settle_stopped (s : Scheduler) : (s.settle latency cache now).next.stopped = s.stopped := by
  have read (s : Scheduler) : (s.settleCatalog latency cache now).next.stopped = s.stopped :=
    (show s.Turn cache now _ _ _ from .runCatalog latency).frame.1
  have passed (s : Scheduler) (cache : MetadataCache) :
      (s.settleTags latency cache now).next.stopped = s.stopped :=
    (show s.Turn cache now _ _ _ from .runTags latency).frame.1
  have joined (s : Scheduler) (cache : MetadataCache) :
      (s.settleJoin cache).next.stopped = s.stopped :=
    (show s.Turn cache now _ _ _ from .join).frame.1
  simp only [settle, Step.next_andThen, read, passed, joined]

/-- All that stopped loops do by themselves at one instant ends them. -/
theorem over_settle (ordered : s.Ordered cache) (asked : s.stopped = true) :
    (s.settle latency cache now).next.Over := by
  let first := s.settleCatalog latency cache now
  have read : s.Turn cache now .catalog .runs first := .runCatalog latency
  have asked₁ : first.next.stopped = true := read.frame.1.trans asked
  have leaving : first.next.Leaving := (leaving_settleCatalog latency cache now asked).1
  have passed : first.next.Turn first.cache now .tags .runs
      (first.next.settleTags latency first.cache now) := .runTags latency
  have finished := (over_settleTags latency first.cache now asked₁).1
  exact over_settleJoin _ (passed.ordered (read.ordered ordered)) (passed.leaving asked₁ leaving)
    finished

end Scheduler

end RegistryCache
