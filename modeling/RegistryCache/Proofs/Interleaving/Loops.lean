import RegistryCache.Proofs.Interleaving.Effects

/-! # What moves do to the loops

A turn of a loop leaves the other loop where it stands, except that a successful refresh may start the
tag loop (`Scheduler.Turn.frame`).  The loops keep an order (`Scheduler.Ordered`): a tag loop runs
only over a catalog that is ready, and the catalog loop ends only when no tag loop is left.  The main
statement is `Run.ordered`.
-/

namespace RegistryCache

/-! ## Where a loop gets -/

def CatalogLoop.Over (loop : CatalogLoop) : Prop := ∃ result, loop = .ended result

/-- The loop has ended, or was never started. -/
def TagLoop.Over (loop : TagLoop) : Prop := loop = .absent ∨ loop = .ended

namespace Scheduler

variable (s : Scheduler) (latency : Call → Nat) (cache : MetadataCache) (now : Instant)

/-- A catalog loop that is done reading ends if there is no tag loop, and waits for it otherwise. -/
theorem leave_next :
    (s.tagLoop = .absent ∧ (s.leave cache).next = { s with catalogLoop := .ended (.ok ()) }) ∨
      (s.tagLoop ≠ .absent ∧ (s.leave cache).next =
        { s with catalogLoop := if s.stopped then .joining else .lingering }) := by
  unfold leave
  split
  case h_1 absent => exact .inl ⟨absent, rfl⟩
  case h_2 present => exact .inr ⟨present, rfl⟩

@[simp] theorem leave_tagLoop : (s.leave cache).next.tagLoop = s.tagLoop := by
  obtain ⟨_, equal⟩ | ⟨_, equal⟩ := s.leave_next cache <;> rw [equal]

@[simp] theorem leave_stopped : (s.leave cache).next.stopped = s.stopped := by
  obtain ⟨_, equal⟩ | ⟨_, equal⟩ := s.leave_next cache <;> rw [equal]

@[simp] theorem leave_activity : (s.leave cache).next.activity? .catalog = none := by
  obtain ⟨_, equal⟩ | ⟨_, equal⟩ := s.leave_next cache
  · rw [equal]
    rfl
  · rw [equal]
    cases s.stopped <;> rfl

theorem startTags_cases (policy : RefreshPolicy) :
    s.startTags policy = s ∨
      (s.tagLoop = .absent ∧ s.startTags policy = { s with tagLoop := .spawned }) := by
  unfold startTags
  split
  case h_1 absent _ => exact .inr ⟨absent, rfl⟩
  case h_2 => exact .inl rfl

theorem pauseCatalog_next :
    (∃ wake, (s.pauseCatalog cache now).next = { s with catalogLoop := .sleeping wake }) ∨
      (s.pauseCatalog cache now).next = (s.leave cache).next := by
  unfold pauseCatalog
  split
  · split
    · exact .inr rfl
    · exact .inl ⟨_, rfl⟩
  · exact .inr rfl

/-- Taking up a walk leaves the tag loop alone, except that its success may start that loop. -/
theorem takeWalk_frame (going : s.stopped = false) (walked : CatalogWalk.Going) :
    (s.takeWalk latency cache now walked).next.stopped = s.stopped ∧
      ((s.takeWalk latency cache now walked).next.tagLoop = s.tagLoop ∨
        (s.stopped = false ∧ s.tagLoop = .absent ∧
          (s.takeWalk latency cache now walked).next.tagLoop = .spawned)) := by
  have pauses (s : Scheduler) : (s.pauseCatalog cache now).next.stopped = s.stopped ∧
      (s.pauseCatalog cache now).next.tagLoop = s.tagLoop := by
    obtain ⟨wake, equal⟩ | equal := s.pauseCatalog_next cache now <;>
    · rw [equal]
      simp
  unfold takeWalk
  split
  · exact ⟨rfl, .inl rfl⟩
  · -- the tag loop starts before the pause, which leaves it where it is
    unfold afterRefresh
    obtain ⟨unstopped, unstarted⟩ := pauses (s.startTags cache.policy)
    rw [unstopped, unstarted]
    obtain equal | ⟨absent, equal⟩ := s.startTags_cases cache.policy
    · rw [equal]
      exact ⟨rfl, .inl rfl⟩
    · rw [equal]
      exact ⟨rfl, .inr ⟨going, absent, rfl⟩⟩
  · exact ⟨rfl, .inl rfl⟩

/-- What running the catalog loop does: nothing, if nothing is due; the way out, if it was asked to
    stop; a new walk otherwise. -/
theorem settleCatalog_cases :
    (s.settleCatalog latency cache now = .pure cache s ∧
      (s.stopped = true → s.catalogLoop = .joining ∨ s.catalogLoop.Over)) ∨
    (s.stopped = true ∧ ¬ s.catalogLoop.Over ∧
      s.settleCatalog latency cache now = s.leave cache) ∨
    (s.stopped = true ∧ s.catalogLoop = .lingering ∧
      s.settleCatalog latency cache now = .pure cache { s with catalogLoop := .joining }) ∨
    (s.stopped = false ∧ ¬ s.catalogLoop.Over ∧
      s.settleCatalog latency cache now = s.beginRefresh latency cache now) := by
  obtain ⟨stopped, catalogLoop, tagLoop⟩ := s
  cases catalogLoop with
  | spawned =>
    cases stopped with
    | true => exact .inr (.inl ⟨rfl, by simp [CatalogLoop.Over], rfl⟩)
    | false => exact .inr (.inr (.inr ⟨rfl, by simp [CatalogLoop.Over], rfl⟩))
  | walking walk due =>
    cases stopped with
    | true => exact .inr (.inl ⟨rfl, by simp [CatalogLoop.Over], rfl⟩)
    | false => exact .inl ⟨rfl, by simp⟩
  | sleeping wake =>
    cases stopped with
    | true => exact .inr (.inl ⟨rfl, by simp [CatalogLoop.Over], rfl⟩)
    | false =>
      by_cases late : wake ≤ now
      · exact .inr (.inr (.inr ⟨rfl, by simp [CatalogLoop.Over], if_pos late⟩))
      · exact .inl ⟨if_neg late, by simp⟩
  | lingering =>
    cases stopped with
    | true => exact .inr (.inr (.inl ⟨rfl, rfl, rfl⟩))
    | false => exact .inl ⟨rfl, by simp⟩
  | joining => exact .inl ⟨rfl, fun _ => .inl rfl⟩
  | ended result => exact .inl ⟨rfl, fun _ => .inr ⟨result, rfl⟩⟩

theorem beginRefresh_next :
    ∃ due, (s.beginRefresh latency cache now).next =
      { s with catalogLoop := .walking ⟨now, none, []⟩ due } := ⟨_, rfl⟩

/-- What looking for the end of the tag loop does: the catalog loop ends, if it waited for that. -/
theorem settleJoin_cases :
    (s.catalogLoop = .joining ∧ s.tagLoop = .ended ∧
      (s.settleJoin cache).next = { s with catalogLoop := .ended (.ok ()) }) ∨
    (¬ (s.catalogLoop = .joining ∧ s.tagLoop = .ended) ∧ s.settleJoin cache = .pure cache s) := by
  unfold settleJoin
  split
  case h_1 joining ended => exact .inl ⟨joining, ended, rfl⟩
  case h_2 other => exact .inr ⟨fun both => other both.1 both.2, rfl⟩

/-- After a pass the tag loop pauses or has ended; if it was asked to stop it has ended. -/
theorem afterPass_next :
    ((s.afterPass cache now).next = { s with tagLoop := .ended }) ∨
      (s.stopped = false ∧
        ∃ wake, (s.afterPass cache now).next = { s with tagLoop := .sleeping wake }) := by
  unfold afterPass
  split
  · split
    · exact .inl rfl
    · exact .inr ⟨by simpa using ‹¬ s.stopped = true›, _, rfl⟩
  · exact .inl rfl

/-- A pass that waits keeps the tag loop in it; one that is over lets it pause or end. -/
theorem takePass_next (going : Progress TagPass PassOutcome) :
    ∃ loop, loop ≠ .absent ∧
      (s.takePass latency cache now going).next = { s with tagLoop := loop } ∧
      { s with tagLoop := loop }.activity? .tags = going.activity?.map Activity.tagPass ∧
      (s.stopped = true → going.activity? = none → loop = .ended) := by
  cases going with
  | waiting pass => exact ⟨_, TagLoop.noConfusion, rfl, rfl, by simp [Progress.activity?]⟩
  | done outcome =>
    obtain equal | ⟨going, wake, equal⟩ := s.afterPass_next cache now
    · exact ⟨.ended, TagLoop.noConfusion, equal, rfl, fun _ _ => rfl⟩
    · exact ⟨.sleeping wake, TagLoop.noConfusion, equal, rfl, by simp [going]⟩

/-- What running the tag loop does: nothing, if nothing is due; the end, if it was asked to stop; a
    new pass otherwise.  A loop that has not run yet begins its pass in any case. -/
theorem settleTags_cases :
    (s.settleTags latency cache now = .pure cache s ∧ (s.stopped = true → s.tagLoop.Over)) ∨
    (s.stopped = true ∧ ¬ s.tagLoop.Over ∧ (s.settleTags latency cache now).cache = cache ∧
      (s.settleTags latency cache now).begun = [] ∧
      (s.settleTags latency cache now).next = { s with tagLoop := .ended }) ∨
    ((s.tagLoop = .spawned ∨ s.stopped = false ∧ ∃ wake, s.tagLoop = .sleeping wake) ∧
      s.settleTags latency cache now = s.beginPass latency cache now) := by
  obtain ⟨stopped, catalogLoop, tagLoop⟩ := s
  cases tagLoop with
  | absent => exact .inl ⟨rfl, fun _ => .inl rfl⟩
  | spawned =>
    -- whether it was asked to stop is the pass's business
    exact .inr (.inr ⟨.inl rfl, rfl⟩)
  | passing pass due =>
    cases stopped with
    | true =>
      refine .inr (.inl ⟨rfl, by simp [TagLoop.Over], by simp [settleTags], by simp [settleTags], ?_⟩)
      obtain equal | ⟨going, _⟩ :=
        afterPass_next ⟨true, catalogLoop, .passing pass due⟩ cache now
      · exact equal
      · cases going
    | false => exact .inl ⟨rfl, by simp⟩
  | sleeping wake =>
    cases stopped with
    | true => exact .inr (.inl ⟨rfl, by simp [TagLoop.Over], rfl, rfl, rfl⟩)
    | false =>
      by_cases late : wake ≤ now
      · exact .inr (.inr ⟨.inr ⟨rfl, wake, rfl⟩, if_pos late⟩)
      · exact .inl ⟨if_neg late, by simp⟩
  | ended => exact .inl ⟨rfl, fun _ => .inr rfl⟩

/-! ## The order of the loops -/

/-- How the two loops stand to each other and to the cache. -/
structure Ordered (s : Scheduler) (cache : MetadataCache) : Prop where
  /-- The tag loop is started by a refresh that succeeded, and by nothing else. -/
  ready : s.tagLoop ≠ .absent → cache.catalog.ready = true
  /-- The catalog loop outlives the tag loop. -/
  last : s.catalogLoop.Over → s.tagLoop.Over
  /-- There is a tag loop to wait for wherever the catalog loop waits for one. -/
  waits : s.catalogLoop = .joining ∨ s.catalogLoop = .lingering → s.tagLoop ≠ .absent

variable {s latency cache now}

theorem Ordered.leave (ordered : s.Ordered cache) : (s.leave cache).next.Ordered cache := by
  obtain ⟨absent, equal⟩ | ⟨present, equal⟩ := s.leave_next cache
  · rw [equal]
    exact ⟨ordered.ready, fun _ => .inl absent, by simp⟩
  · rw [equal]
    refine ⟨ordered.ready, ?_, fun _ => present⟩
    intro ⟨result, ended⟩
    cases asked : s.stopped <;> simp [asked] at ended

/-- A successful refresh keeps the order, whatever the catalog loop did before: it is the readiness of
    the catalog that lets the tag loop start. -/
theorem Ordered.afterRefresh (ordered : s.Ordered cache) (ready : cache.catalog.ready = true)
    (reading : ¬ s.catalogLoop.Over ∧ s.catalogLoop ≠ .joining ∧ s.catalogLoop ≠ .lingering) :
    (s.afterRefresh cache now).next.Ordered cache := by
  obtain ⟨open', unjoined, unlingering⟩ := reading
  have started : (s.startTags cache.policy).Ordered cache := by
    obtain equal | ⟨absent, equal⟩ := s.startTags_cases cache.policy
    · rw [equal]
      exact ordered
    · rw [equal]
      exact ⟨fun _ => ready, fun finished => absurd finished open', by simp [unjoined, unlingering]⟩
  unfold Scheduler.afterRefresh
  obtain ⟨wake, equal⟩ | equal := (s.startTags cache.policy).pauseCatalog_next cache now
  · rw [equal]
    exact ⟨fun _ => ready, by simp [CatalogLoop.Over], by simp⟩
  · rw [equal]
    exact started.leave

theorem Ordered.settleCatalog (ordered : s.Ordered cache) :
    (s.settleCatalog latency cache now).next.Ordered cache := by
  obtain ⟨equal, _⟩ | ⟨_, _, equal⟩ | ⟨_, lingering, equal⟩ | ⟨_, _, equal⟩ :=
    s.settleCatalog_cases latency cache now
  · rw [equal]
    exact ordered
  · rw [equal]
    exact ordered.leave
  · rw [equal]
    have present := ordered.waits (.inr lingering)
    exact ⟨ordered.ready, by simp [CatalogLoop.Over], fun _ => present⟩
  · rw [equal]
    obtain ⟨due, equal⟩ := s.beginRefresh_next latency cache now
    rw [equal]
    exact ⟨ordered.ready, by simp [CatalogLoop.Over], by simp⟩

theorem Ordered.settleJoin (ordered : s.Ordered cache) :
    (s.settleJoin cache).next.Ordered cache := by
  obtain ⟨_, ended, equal⟩ | ⟨_, equal⟩ := s.settleJoin_cases cache
  · rw [equal]
    exact ⟨ordered.ready, fun _ => .inr ended, by simp⟩
  · rw [equal]
    exact ordered

/-- The tag loop may move to wherever it likes while the catalog loop is not over. -/
theorem Ordered.moveTags (ordered : s.Ordered cache) (open' : ¬ s.tagLoop.Over) {loop : TagLoop}
    (started : loop ≠ .absent) : { s with tagLoop := loop }.Ordered cache := by
  have present : s.tagLoop ≠ .absent := fun absent => open' (.inl absent)
  exact ⟨fun _ => ordered.ready present, fun finished => absurd (ordered.last finished) open',
    fun _ => started⟩

theorem Ordered.of_catalog_eq {cache' : MetadataCache} (ordered : s.Ordered cache)
    (same : cache'.catalog = cache.catalog) : s.Ordered cache' :=
  ⟨fun present => same ▸ ordered.ready present, ordered.last, ordered.waits⟩

theorem Ordered.settleTags (ordered : s.Ordered cache) :
    (s.settleTags latency cache now).next.Ordered cache := by
  obtain ⟨equal, _⟩ | ⟨_, open', _, _, equal⟩ | ⟨begins, equal⟩ :=
    s.settleTags_cases latency cache now
  · rw [equal]
    exact ordered
  · rw [equal]
    exact ordered.moveTags open' TagLoop.noConfusion
  · -- only a loop that is not over begins a pass
    have open' : ¬ s.tagLoop.Over := by
      obtain spawned | ⟨_, wake, sleeping⟩ := begins <;> simp [TagLoop.Over, *]
    obtain ⟨loop, started, moved, _⟩ := s.takePass_next latency
      (TagPass.begin cache now s.stopped).cache now (TagPass.begin cache now s.stopped).next
    rw [equal, beginPass, Step.next_andThen, moved]
    exact ordered.moveTags open' started

/-- The reply to a page.  A walk that fails over a catalog that is not ready ends the catalog loop at
    once, and then there is no tag loop it could leave behind. -/
theorem Ordered.receivePage (ordered : s.Ordered cache) {walk : CatalogWalk} {due : Instant}
    (waiting : s.catalogLoop = .walking walk due) (reply : Except RegistryError CatalogPage) :
    (s.receivePage walk latency cache now reply).next.Ordered
      (walk.receive cache now reply).cache := by
  have reading : ¬ s.catalogLoop.Over ∧ s.catalogLoop ≠ .joining ∧ s.catalogLoop ≠ .lingering := by
    simp [waiting, CatalogLoop.Over]
  rw [Scheduler.receivePage, Step.next_andThen]
  obtain ⟨notices, e, _, equal⟩ | ⟨notices, page, cursor, _, _, _, equal⟩ |
    ⟨notices, page, _, _, equal⟩ := walk.receive_cases cache now reply
  · rw [equal]
    simp only [CatalogWalk.cache_fail, CatalogWalk.next_fail]
    cases ready : cache.catalog.ready with
    | true => exact ordered.afterRefresh ready reading
    | false =>
      -- a tag loop would have been started over a catalog that is ready, and so is it still
      have absent : s.tagLoop = .absent := by
        by_contra present
        rw [ordered.ready present] at ready
        cases ready
      exact ⟨ordered.ready, fun _ => .inl absent, by simp [takeWalk]⟩
  · rw [equal]
    exact ⟨ordered.ready, by simp [CatalogLoop.Over, takeWalk, CatalogWalk.request],
      by simp [takeWalk, CatalogWalk.request]⟩
  · rw [equal]
    have ready : (cache.catalog.commit (walk.gathered ++ page.repositories)).1.ready = true :=
      Catalog.commit_ready ..
    refine Ordered.afterRefresh ⟨fun _ => ready, ordered.last, ordered.waits⟩ ready reading

theorem Ordered.receiveTags (ordered : s.Ordered cache) {pass : TagPass} {due : Instant}
    (waiting : s.tagLoop = .passing pass due) (reply : Except RegistryError (List String)) :
    (s.receiveTags pass latency cache now reply).next.Ordered cache := by
  have open' : ¬ s.tagLoop.Over := by simp [TagLoop.Over, waiting]
  obtain ⟨loop, started, moved, _⟩ := s.takePass_next latency
    (pass.receive cache now s.stopped reply).cache now (pass.receive cache now s.stopped reply).next
  rw [Scheduler.receiveTags, Step.next_andThen, moved]
  exact ordered.moveTags open' started

/-! ## Turns and moves -/

/-- The loop whose turn it is not stays where it stands.  Only a catalog loop that may go on starts
    the tag loop. -/
def Spares (s s' : Scheduler) : Role → Prop
  | .catalog => s'.tagLoop = s.tagLoop ∨
      (s.stopped = false ∧ s.tagLoop = .absent ∧ s'.tagLoop = .spawned)
  | .tags => s'.catalogLoop = s.catalogLoop

namespace Turn

variable {role : Role} {action : Action} {step : Step Scheduler}

/-- What a turn leaves alone: the request to stop, and the other loop. -/
theorem frame (turn : s.Turn cache now role action step) :
    step.next.stopped = s.stopped ∧ s.Spares step.next role := by
  have passes (cache' : MetadataCache) (latency : Call → Nat)
      (going : Progress TagPass PassOutcome) :
      (s.takePass latency cache' now going).next.stopped = s.stopped ∧
        (s.takePass latency cache' now going).next.catalogLoop = s.catalogLoop := by
    obtain ⟨loop, _, moved, _⟩ := s.takePass_next latency cache' now going
    rw [moved]
    exact ⟨rfl, rfl⟩
  cases turn with
  | runCatalog latency =>
    obtain ⟨equal, _⟩ | ⟨_, _, equal⟩ | ⟨_, _, equal⟩ | ⟨_, _, equal⟩ :=
      s.settleCatalog_cases latency cache now <;> rw [equal]
    · exact ⟨rfl, .inl rfl⟩
    · exact ⟨s.leave_stopped cache, .inl (s.leave_tagLoop cache)⟩
    · exact ⟨rfl, .inl rfl⟩
    · exact ⟨rfl, .inl rfl⟩
  | join =>
    obtain ⟨_, _, equal⟩ | ⟨_, equal⟩ := s.settleJoin_cases cache <;>
    · rw [equal]
      exact ⟨rfl, .inl rfl⟩
  | runTags latency =>
    obtain ⟨equal, _⟩ | ⟨_, _, _, _, equal⟩ | ⟨_, equal⟩ := s.settleTags_cases latency cache now
    · rw [equal]
      exact ⟨rfl, rfl⟩
    · rw [equal]
      exact ⟨rfl, rfl⟩
    · rw [equal, beginPass, Step.next_andThen]
      exact passes ..
  | @page walk due waiting going latency reply =>
    rw [receivePage, Step.next_andThen]
    exact s.takeWalk_frame latency _ now going _
  | @tags pass due waiting going latency reply =>
    rw [receiveTags, Step.next_andThen]
    exact passes ..

theorem ordered (turn : s.Turn cache now role action step) (before : s.Ordered cache) :
    step.next.Ordered step.cache := by
  cases turn with
  | runCatalog latency =>
    rw [cache_settleCatalog]
    exact before.settleCatalog
  | join =>
    rw [cache_settleJoin]
    exact before.settleJoin
  | runTags latency =>
    have same := s.settleTags_withoutTagsJob latency cache now
    exact before.settleTags.of_catalog_eq (MetadataCache.catalog_eq_of_withoutTagsJob same)
  | @page walk due waiting going latency reply =>
    rw [cache_receivePage]
    exact before.receivePage waiting reply
  | @tags pass due waiting going latency reply =>
    have same := Activity.receive_catalog cache now s.stopped (.tagPass pass) reply
      (by rintro ⟨cursor, page, brings, _⟩; cases brings)
    exact (before.receiveTags waiting reply).of_catalog_eq (by simpa [Activity.receive] using same.1)

end Turn

end Scheduler

namespace Interleaving

variable {σ σ' : Interleaving} {e : Event}

def Ordered (σ : Interleaving) : Prop :=
  ∀ j s, σ.schedulers j = some s → s.Ordered σ.cache

theorem Ordered.put {j : Nat} {s : Scheduler} (ordered : σ.Ordered) (placed : s.Ordered σ.cache) :
    (σ.put j s).Ordered := by
  intro k t present
  by_cases same : k = j
  · subst same
    simp only [Interleaving.put, Function.update_self, Option.some.injEq] at present
    exact present ▸ placed
  · simp only [Interleaving.put, Function.update_of_ne same] at present
    exact ordered k t present

/-- Loops stay in order while the cache changes, as long as it never gets unready. -/
theorem Ordered.of_ready {cache : MetadataCache} (ordered : σ.Ordered)
    (kept : σ.cache.catalog.ready = true → cache.catalog.ready = true) :
    ({ σ with cache := cache } : Interleaving).Ordered := by
  intro j s present
  have before := ordered j s present
  exact ⟨fun started => kept (before.ready started), before.last, before.waits⟩

theorem Move.ordered (move : Move σ e σ') (before : σ.Ordered) : σ'.Ordered := by
  -- whatever others do to the cache, the catalog stays ready where it was
  have kept := move.ready
  cases move with
  | elapse ms => exact before
  | start free =>
    exact before.put ⟨fun started => absurd rfl started, fun _ => .inl rfl, by simp [Scheduler.start]⟩
  | @stop j s present =>
    have placed := before j s present
    exact before.put ⟨placed.ready, placed.last, placed.waits⟩
  | begin free operation => exact before.of_ready kept
  | hear waiting stopped reply => exact before.of_ready kept
  | quit waiting => exact before.of_ready kept
  | @loop j s role action step present turn =>
    exact Ordered.put (j := j) (before.of_ready kept) (turn.ordered (before j s present))

theorem Run.ordered {cache : MetadataCache} {now : Instant} {events : List Event}
    (run : Run (.idle cache now) events σ) : σ.Ordered :=
  run.keeps (fun _ _ present => by cases present) Move.ordered

/-- What a move does to the loops of one scheduler: nothing, a stop request, or a turn. -/
theorem Move.scheduler_cases {j : Nat} {s : Scheduler} (move : Move σ e σ')
    (present : σ.schedulers j = some s) :
    (σ'.schedulers j = some s ∧ ∀ role, e.party? ≠ some (.loop role j)) ∨
    (σ'.schedulers j = some s.stop ∧ ∀ role, e.party? ≠ some (.loop role j)) ∨
    (∃ role action step, e = .act (.loop role j) action step.begun none ∧
      s.Turn σ.cache σ.now role action step ∧ σ' = σ.advance j step) := by
  cases move with
  | elapse ms => exact .inl ⟨present, by simp [Event.party?]⟩
  | begin | hear | quit => exact .inl ⟨present, by simp [Event.party?]⟩
  | @start k free =>
    -- new loops get a number that is free
    have distinct : j ≠ k := by
      rintro rfl
      rw [present] at free
      cases free
    exact .inl ⟨by simp [Interleaving.put, Function.update_of_ne distinct, present],
      by simp [Event.party?]⟩
  | @stop k t asked =>
    by_cases same : j = k
    · subst same
      rw [present] at asked
      cases asked
      exact .inr (.inl ⟨by simp [Interleaving.put], by simp [Event.party?]⟩)
    · exact .inl ⟨by simp [Interleaving.put, Function.update_of_ne same, present],
        by simp [Event.party?]⟩
  | @loop k t role action step there turn =>
    by_cases same : j = k
    · subst same
      rw [present] at there
      cases there
      exact .inr (.inr ⟨role, action, step, rfl, turn, rfl⟩)
    · have distinct : k ≠ j := fun equal => same equal.symm
      exact .inl ⟨by simp [advance, Interleaving.put, Function.update_of_ne same, present],
        by simp [Event.party?, distinct]⟩

end Interleaving

end RegistryCache
