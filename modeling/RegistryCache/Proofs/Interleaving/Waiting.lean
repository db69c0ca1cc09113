import RegistryCache.Proofs.Interleaving.Loops

/-! # What moves do to those who wait

A party waits for the reply to one call at a time.  A move changes what the party waits for that makes
it and nobody else, and whoever waits after a move has waited before or has just begun the call
(`Move.waits`).  A party that is in the middle of a catalog walk has just begun it, or has heard one
more page than before (`Move.walks`).
-/

namespace RegistryCache

/-! ## Steps begin the calls that they wait for -/

/-- The one call that is begun, if any, is the one waited for. -/
theorem Operation.begun_begin (cache : MetadataCache) (now : Instant) (operation : Operation) :
    (operation.begin cache now).begun =
      ((operation.begin cache now).next.activity?.map Activity.call).toList := by
  cases operation with
  | refreshCatalog | fetchTags | deleteTag => rfl
  | listTags repository =>
    simp only [Operation.begin, TagListing.begin]
    split <;> rfl
  | refreshTags stopped =>
    simp only [Operation.begin, TagPass.begin, Step.begun_map, Step.begun_after, Step.next_map,
      Step.next_after, PassTally.visit_begun]
    generalize PassTally.visit _ _ _ _ _ = step
    cases step.next <;> rfl

theorem CatalogWalk.begun_receive (w : CatalogWalk) (cache : MetadataCache) (now : Instant)
    (reply : Except RegistryError CatalogPage) :
    (w.receive cache now reply).begun =
      ((w.receive cache now reply).next.activity?.map CatalogWalk.call).toList := by
  obtain ⟨_, _, _, equal⟩ | ⟨_, _, _, _, _, _, equal⟩ | ⟨_, _, _, _, equal⟩ :=
    w.receive_cases cache now reply <;>
  · rw [equal]
    rfl

theorem TagPass.begun_receive (pass : TagPass) (cache : MetadataCache) (now : Instant)
    (stopped : Bool) (reply : Except RegistryError (List String)) :
    (pass.receive cache now stopped reply).begun =
      ((pass.receive cache now stopped reply).next.activity?.map TagPass.call).toList := by
  simp [TagPass.receive, PassTally.visit_begun]

/-- The one call that is begun, if any, is the one waited for. -/
theorem Activity.begun_receive (cache : MetadataCache) (now : Instant) (stopped : Bool)
    (activity : Activity) (reply : activity.call.Reply) :
    (activity.receive cache now stopped reply).begun =
      ((activity.receive cache now stopped reply).next.activity?.map Activity.call).toList := by
  cases activity with
  | catalogWalk walk =>
    simp only [receive, Step.begun_map, Step.next_map, CatalogWalk.begun_receive]
    cases (walk.receive cache now reply).next <;> rfl
  | tagFetch repository | tagListing repository => cases reply <;> rfl
  | tagPass pass =>
    simp only [receive, Step.begun_map, Step.next_map, TagPass.begun_receive]
    cases (pass.receive cache now stopped reply).next <;> rfl
  | lookup repository tag => cases reply <;> rfl
  | removal repository tag descriptor => cases reply <;> rfl

/-! ## Where a catalog walk stands -/

theorem CatalogWalk.receive_next {w w' : CatalogWalk} {cache : MetadataCache} {now : Instant}
    {reply : Except RegistryError CatalogPage}
    (next : (w.receive cache now reply).next.activity? = some w') :
    ∃ page cursor, reply = .ok page ∧ page.next = some cursor ∧
      w' = ⟨w.started, some cursor, w.gathered ++ page.repositories⟩ := by
  obtain ⟨_, _, _, equal⟩ | ⟨_, page, cursor, arrived, named, _, equal⟩ | ⟨_, _, _, _, equal⟩ :=
    w.receive_cases cache now reply
  · rw [equal] at next
    cases next
  · rw [equal] at next
    cases next
    exact ⟨page, cursor, arrived, named, rfl⟩
  · rw [equal] at next
    cases next

theorem Operation.begin_walk {cache : MetadataCache} {now : Instant} {operation : Operation}
    {w : CatalogWalk}
    (next : (operation.begin cache now).next.activity? = some (.catalogWalk w)) :
    w.cursor = none ∧ w.gathered = [] := by
  cases operation with
  | refreshCatalog =>
    cases next
    exact ⟨rfl, rfl⟩
  | fetchTags | deleteTag => cases next
  | listTags repository =>
    simp only [Operation.begin, TagListing.begin] at next
    split at next <;> cases next
  | refreshTags stopped =>
    simp only [Operation.begin, Step.next_map] at next
    cases equal : (TagPass.begin cache now stopped).next with
    | waiting | done =>
      rw [equal] at next
      cases next

/-- An activity that is in a walk after a reply was in it before, and has heard one more page. -/
theorem Activity.receive_walk {cache : MetadataCache} {now : Instant} {stopped : Bool}
    {activity : Activity} {reply : activity.call.Reply} {w' : CatalogWalk}
    (next : (activity.receive cache now stopped reply).next.activity? = some (.catalogWalk w')) :
    ∃ w page cursor, activity = .catalogWalk w ∧
      (Action.hears activity reply).page? = some (w.cursor, page) ∧ page.next = some cursor ∧
      w' = ⟨w.started, some cursor, w.gathered ++ page.repositories⟩ := by
  cases activity with
  | catalogWalk w =>
    have walks : (w.receive cache now reply).next.activity? = some w' := by
      simp only [receive, Step.next_map] at next
      cases equal : (w.receive cache now reply).next with
      | waiting => rw [equal] at next; cases next; rfl
      | done => rw [equal] at next; cases next
    obtain ⟨page, cursor, rfl, named, equal⟩ := CatalogWalk.receive_next walks
    exact ⟨w, page, cursor, rfl, rfl, named, equal⟩
  | tagPass pass =>
    simp only [receive, Step.next_map] at next
    cases equal : (pass.receive cache now stopped reply).next with
    | waiting | done =>
      rw [equal] at next
      cases next
  | tagFetch | tagListing | lookup | removal => cases reply <;> cases next

/-! ## Turns of a scheduler -/

namespace Scheduler

variable {s : Scheduler} {latency : Call → Nat} {cache : MetadataCache} {now : Instant}

theorem takeWalk_activity (s : Scheduler) (latency : Call → Nat) (cache : MetadataCache)
    (now : Instant) (going : CatalogWalk.Going) :
    (s.takeWalk latency cache now going).next.activity? .catalog =
      going.activity?.map Activity.catalogWalk := by
  have rests (s : Scheduler) : (s.pauseCatalog cache now).next.activity? .catalog = none := by
    obtain ⟨wake, equal⟩ | equal := s.pauseCatalog_next cache now
    · rw [equal]
      rfl
    · rw [equal, leave_activity]
  unfold takeWalk
  split
  · rfl
  · exact rests _
  · rfl

theorem takePass_activity (s : Scheduler) (latency : Call → Nat) (cache : MetadataCache)
    (now : Instant) (going : Progress TagPass PassOutcome) :
    (s.takePass latency cache now going).next.activity? .tags =
      going.activity?.map Activity.tagPass := by
  obtain ⟨loop, _, moved, waits, _⟩ := s.takePass_next latency cache now going
  rw [moved, waits]

theorem beginPass_begun (s : Scheduler) (latency : Call → Nat) (cache : MetadataCache)
    (now : Instant) :
    (s.beginPass latency cache now).begun =
      (((s.beginPass latency cache now).next.activity? .tags).map Activity.call).toList := by
  rw [beginPass, Step.begun_andThen, Step.next_andThen, takePass_activity, begun_takePass,
    List.append_nil, Option.map_map]
  exact PassTally.visit_begun ..

namespace Turn

variable {role role' : Role} {action : Action} {step : Step Scheduler}

/-- The one call that a loop begins, if any, is the one it then waits for. -/
theorem begun (turn : s.Turn cache now role action step) :
    (step.begun = [] ∧ step.next.activity? role = s.activity? role) ∨
      step.begun = ((step.next.activity? role).map Activity.call).toList := by
  cases turn with
  | runCatalog latency =>
    obtain ⟨equal, _⟩ | ⟨_, _, equal⟩ | ⟨_, lingering, equal⟩ | ⟨_, _, equal⟩ :=
      s.settleCatalog_cases latency cache now
    · rw [equal]
      exact .inl ⟨rfl, rfl⟩
    · rw [equal, begun_leave, leave_activity]
      exact .inr rfl
    · rw [equal]
      exact .inr rfl
    · rw [equal]
      exact .inr rfl
  | join =>
    obtain ⟨_, _, equal⟩ | ⟨_, equal⟩ := s.settleJoin_cases cache
    · rw [equal, begun_settleJoin]
      exact .inr rfl
    · rw [equal]
      exact .inl ⟨rfl, rfl⟩
  | runTags latency =>
    obtain ⟨equal, _⟩ | ⟨_, _, _, silent, equal⟩ | ⟨_, equal⟩ :=
      s.settleTags_cases latency cache now
    · rw [equal]
      exact .inl ⟨rfl, rfl⟩
    · rw [equal, silent]
      exact .inr rfl
    · rw [equal]
      exact .inr (s.beginPass_begun latency cache now)
  | @page walk due waiting going latency reply =>
    right
    rw [receivePage, Step.begun_andThen, Step.next_andThen, takeWalk_activity, begun_takeWalk,
      List.append_nil, Option.map_map]
    exact walk.begun_receive cache now reply
  | @tags pass due waiting going latency reply =>
    right
    rw [receiveTags, Step.begun_andThen, Step.next_andThen, takePass_activity, begun_takePass,
      List.append_nil, Option.map_map]
    exact pass.begun_receive cache now s.stopped reply

theorem activity_other (turn : s.Turn cache now role action step) (other : role' ≠ role) :
    step.next.activity? role' = s.activity? role' := by
  obtain ⟨_, spared⟩ := turn.frame
  cases role with
  | catalog =>
    cases role' with
    | catalog => exact absurd rfl other
    | tags =>
      -- a tag loop that was just started waits as little as none
      obtain same | ⟨_, absent, spawned⟩ := spared
      · simp only [activity?, same]
      · simp only [activity?, absent, spawned]
  | tags =>
    cases role' with
    | catalog =>
      have same : step.next.catalogLoop = s.catalogLoop := spared
      simp only [activity?, same]
    | tags => exact absurd rfl other

/-- What a turn means for the walk that its loop is in afterwards. -/
theorem walks {w' : CatalogWalk} (turn : s.Turn cache now role action step)
    (waiting : step.next.activity? role = some (.catalogWalk w')) :
    (action.page? = none ∧ s.activity? role = some (.catalogWalk w')) ∨
    (action.page? = none ∧ w'.cursor = none ∧ w'.gathered = []) ∨
    (∃ w page cursor, s.activity? role = some (.catalogWalk w) ∧
      action.page? = some (w.cursor, page) ∧ page.next = some cursor ∧
      w' = ⟨w.started, some cursor, w.gathered ++ page.repositories⟩) := by
  cases turn with
  | runCatalog latency =>
    obtain ⟨equal, _⟩ | ⟨_, _, equal⟩ | ⟨_, lingering, equal⟩ | ⟨_, _, equal⟩ :=
      s.settleCatalog_cases latency cache now
    · rw [equal] at waiting
      exact .inl ⟨rfl, waiting⟩
    · rw [equal, leave_activity] at waiting
      cases waiting
    · rw [equal] at waiting
      cases waiting
    · rw [equal] at waiting
      cases waiting
      exact .inr (.inl ⟨rfl, rfl, rfl⟩)
  | join =>
    obtain ⟨_, _, equal⟩ | ⟨_, equal⟩ := s.settleJoin_cases cache
    · rw [activity?, equal] at waiting
      cases waiting
    · rw [equal] at waiting
      exact .inl ⟨rfl, waiting⟩
  | @page walk due present going latency reply =>
    rw [receivePage, Step.next_andThen, takeWalk_activity, Option.map_eq_some_iff] at waiting
    obtain ⟨w, next, equal⟩ := waiting
    cases equal
    obtain ⟨page, cursor, rfl, named, rfl⟩ := CatalogWalk.receive_next next
    exact .inr (.inr ⟨walk, page, cursor, by simp [activity?, present], rfl, named, rfl⟩)
  | runTags | tags =>
    -- the tag loop is never in a walk
    simp only [activity?] at waiting
    split at waiting <;> cases waiting

end Turn

end Scheduler

/-! ## Moves -/

namespace Interleaving

variable {σ σ' : Interleaving} {e : Event} {p q : Party}

@[simp] theorem activity_put_self (σ : Interleaving) (role : Role) (j : Nat) (s : Scheduler) :
    (σ.put j s).activity? (.loop role j) = s.activity? role := by
  simp [activity?, put]

theorem activity_put_of_ne (σ : Interleaving) (role : Role) {j k : Nat} (other : k ≠ j)
    (s : Scheduler) : (σ.put j s).activity? (.loop role k) = σ.activity? (.loop role k) := by
  simp [activity?, put, Function.update_of_ne other]

/-- Loops that are put where their waiting does not change: nobody's waiting changes. -/
theorem activity_put (σ : Interleaving) {j : Nat} {s s' : Scheduler}
    (present : σ.schedulers j = some s) (q : Party)
    (same : ∀ role, q = .loop role j → s'.activity? role = s.activity? role) :
    (σ.put j s').activity? q = σ.activity? q := by
  cases q with
  | caller i => rfl
  | loop role k =>
    by_cases other : k = j
    · subst other
      rw [activity_put_self, same role rfl, activity?, present]
      rfl
    · exact σ.activity_put_of_ne role other s'

/-- A move changes what the one waits for that makes it, and nobody else. -/
theorem Move.activity_other (move : Move σ e σ') (other : e.party? ≠ some q) :
    σ'.activity? q = σ.activity? q := by
  cases move with
  | elapse ms => rfl
  | @start j free =>
    cases q with
    | caller i => rfl
    | loop role k =>
      by_cases same : k = j
      · subst same
        rw [activity_put_self, activity?, free]
        cases role <;> rfl
      · exact σ.activity_put_of_ne role same _
  | @stop j s present => exact σ.activity_put present q fun role _ => rfl
  | @begin i free operation | @hear i activity waiting stopped reply | @quit i activity waiting =>
    cases q with
    | caller k =>
      have distinct : k ≠ i := by
        rintro rfl
        exact other rfl
      exact Function.update_of_ne distinct _ _
    | loop role k => rfl
  | @loop j s role action step present turn =>
    refine σ.activity_put present q fun role' same => turn.activity_other ?_
    rintro rfl
    exact other (same ▸ rfl)

/-- Whoever waits after a move has waited before, or has just begun the call. -/
theorem Move.waits {activity : Activity} (move : Move σ e σ')
    (waiting : σ'.activity? q = some activity) :
    σ.activity? q = some activity ∨ (e.party? = some q ∧ activity.call ∈ e.begun) := by
  by_cases acts : e.party? = some q
  · -- who moves and waits afterwards has begun a call, or is a loop that did nothing
    cases move with
    | elapse | start | stop => cases acts
    | @begin i free operation =>
      cases acts
      have next : (operation.begin σ.cache σ.now).next.activity? = some activity := by
        simpa [activity?, serve] using waiting
      exact .inr ⟨rfl, by simp [Event.begun, operation.begun_begin, next]⟩
    | @hear i before present stopped reply =>
      cases acts
      have next : (before.receive σ.cache σ.now stopped reply).next.activity? = some activity := by
        simpa [activity?, serve] using waiting
      exact .inr ⟨rfl, by simp [Event.begun, before.begun_receive, next]⟩
    | @quit i before present =>
      cases acts
      simp [activity?, dismiss] at waiting
    | @loop j s role action step present turn =>
      cases acts
      have next : step.next.activity? role = some activity := by
        rw [← waiting]
        exact (σ.activity_put_self role j step.next).symm
      obtain ⟨_, unchanged⟩ | begun := turn.begun
      · rw [next] at unchanged
        exact .inl (by simp [activity?, present, unchanged])
      · exact .inr ⟨rfl, by simp [Event.begun, begun, next]⟩
  · rw [move.activity_other acts] at waiting
    exact .inl waiting

/-- What a move means for the walk that the one who makes it is in afterwards: it is as it was, it has
    just begun, or it has heard one more page. -/
theorem Move.walks {action : Action} {begun : List Call} {outcome : Option Outcome}
    {w' : CatalogWalk} (move : Move σ (.act p action begun outcome) σ')
    (waiting : σ'.activity? p = some (.catalogWalk w')) :
    (action.page? = none ∧ σ.activity? p = some (.catalogWalk w')) ∨
    (action.page? = none ∧ w'.cursor = none ∧ w'.gathered = []) ∨
    (∃ w page cursor, σ.activity? p = some (.catalogWalk w) ∧
      action.page? = some (w.cursor, page) ∧ page.next = some cursor ∧
      w' = ⟨w.started, some cursor, w.gathered ++ page.repositories⟩) := by
  cases move with
  | @begin i free operation =>
    have next : (operation.begin σ.cache σ.now).next.activity? = some (.catalogWalk w') := by
      simpa [activity?, serve] using waiting
    exact .inr (.inl ⟨rfl, operation.begin_walk next⟩)
  | @hear i activity present stopped reply =>
    have next :
        (activity.receive σ.cache σ.now stopped reply).next.activity? = some (.catalogWalk w') := by
      simpa [activity?, serve] using waiting
    obtain ⟨w, page, cursor, rfl, brings, named, equal⟩ := Activity.receive_walk next
    exact .inr (.inr ⟨w, page, cursor, present, brings, named, equal⟩)
  | @quit i activity present => simp [activity?, dismiss] at waiting
  | @loop j s role _ step present turn =>
    have next : step.next.activity? role = some (.catalogWalk w') := by
      rw [← waiting]
      exact (σ.activity_put_self role j step.next).symm
    have before : σ.activity? (.loop role j) = s.activity? role := by
      simp [activity?, present]
    rw [before]
    exact turn.walks next

end Interleaving

end RegistryCache
