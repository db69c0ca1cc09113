import RegistryCache.Proofs.Scheduling.LifeCycle
import RegistryCache.Proofs.Scheduling.Timetable

/-! # Loops in time

As long as nobody stops them, and no instant goes by at which they have something to do, the loops of a
scheduler keep their timetables, whatever the registry replies and whenever.  The main statement is
`Interleaving.scheduler_timeline`.
-/

namespace RegistryCache

/-! ## What refreshes and passes ask -/

/-- The page that a walk asks for which waits for the page at a cursor, when these replies will have
    arrived. -/
def pageAfter (cursor : Option String) : List (Except RegistryError CatalogPage) → Option Call
  | [] => some (.catalogPage cursor)
  | .ok ⟨_, some next⟩ :: later => if cursor = some next then none else pageAfter (some next) later
  | _ :: _ => none

/-- A refresh asks for the first page, and for the next one as long as a page names another. -/
def refreshPlan : Plan Unit (Except RegistryError CatalogPage) CatalogWalk where
  ask _ := pageAfter none
  left w := pageAfter w.cursor
  call := CatalogWalk.call
  left_nil _ := rfl

/-- A pass asks for the tags of one repository after the other, whatever it hears. -/
def passPlan : Plan (List String) (Except RegistryError (List String)) TagPass where
  ask agenda answers := agenda[answers.length]?.map .tagList
  left p more := (p.current :: p.rest)[more.length]?.map .tagList
  call := TagPass.call
  left_nil _ := rfl

theorem CatalogWalk.receive_leads (w : CatalogWalk) (cache : MetadataCache) (now : Instant)
    (reply : Except RegistryError CatalogPage) :
    refreshPlan.Leads (fun more => pageAfter w.cursor (reply :: more))
      (w.receive cache now reply).next := by
  obtain ⟨reason, breaks⟩ | ⟨names, next, rfl, moves⟩ | ⟨names, rfl⟩ := reply_cases w.cursor reply
  · obtain ⟨notices, equal⟩ := w.receive_of_breaks cache now breaks
    rw [equal]
    cases breaks with
    | failure => rfl
    | @standstill page next named same =>
      obtain ⟨names, following⟩ := page
      have equal : following = some next := named
      subst equal
      exact if_pos same
  · obtain ⟨notices, equal⟩ := w.receive_of_further cache now names moves
    rw [equal]
    exact funext fun more => if_neg moves
  · obtain ⟨notices, equal⟩ := w.receive_of_last cache now names
    have finished := (complete_eq cache now w.started (w.gathered ++ names)).2
    rw [equal]
    simp only [finished]
    rfl

theorem PassTally.visit_leads (t : PassTally) (cache : MetadataCache) (now : Instant)
    (repositories : List String) :
    passPlan.Leads (fun more => repositories[more.length]?.map .tagList)
      (t.visit cache now false repositories).next := by
  cases repositories <;> rfl

/-! ## Where the loops are -/

def CatalogLoop.pace : CatalogLoop → Pace CatalogWalk
  | spawned => .early
  | walking walk _ => .asking walk
  | sleeping wake => .asleep wake
  | lingering | joining | ended _ => .finished

def TagLoop.pace : TagLoop → Pace TagPass
  | spawned => .early
  | passing pass _ => .asking pass
  | sleeping wake => .asleep wake
  | absent | ended => .finished

theorem CatalogLoop.due_pace_iff {loop : CatalogLoop} {now : Instant} :
    loop.pace.Due now ↔ loop.Due now := by
  cases loop <;> simp [pace, Pace.Due, Due]

theorem TagLoop.due_pace_iff {loop : TagLoop} {now : Instant} :
    loop.pace.Due now ↔ loop.Due now := by
  cases loop <;> simp [pace, Pace.Due, Due]

/-- A walk that lands the catalog loop in an error has failed, and any other keeps it in time. -/
theorem CatalogLoop.Lands.cases {policy : RefreshPolicy} {now : Instant}
    {walked : CatalogWalk.Going} {loop : CatalogLoop} (lands : loop.Lands policy now walked) :
    (∃ e, loop = .ended (.error e)) ∨
      (loop ≠ .joining ∧ loop.pace.Lands policy.catalogPause? now walked ∧
        ((∃ walk, walked = .waiting walk) ∨ ∃ result, walked = .done (.ok result))) := by
  cases lands with
  | waits walk due => exact .inr ⟨by simp, .waits walk, .inl ⟨walk, rfl⟩⟩
  | pauses again result => exact .inr ⟨by simp, .pauses again _, .inr ⟨result, rfl⟩⟩
  | lingers once result | ends once result =>
    exact .inr ⟨by simp, .ends once _, .inr ⟨result, rfl⟩⟩
  | fails e => exact .inl ⟨e, rfl⟩

theorem TagLoop.Lands.pace {policy : RefreshPolicy} {now : Instant}
    {passed : Progress TagPass PassOutcome} {loop : TagLoop}
    (lands : loop.Lands policy false now passed) : loop.pace.Lands policy.tagsPause? now passed := by
  cases lands with
  | waits pass due => exact .waits pass
  | pauses again going outcome => exact .pauses again outcome
  | ends finished outcome => exact .ends (by simpa using finished) outcome

/-- The scheduler has something to do that waits for nothing. -/
def Scheduler.Due (s : Scheduler) (now : Instant) : Prop :=
  s.catalogLoop.Due now ∨ s.tagLoop.Due now

/-- When the first of some refreshes has ended. -/
def Refresh.firstEnd? (refreshes : List Refresh) : Option Instant :=
  refreshes.head?.bind fun r => r.ended.map Prod.fst

theorem Refresh.firstEnd?_append {refreshes : List Refresh} {r : Refresh} (running : r.ended = none) :
    firstEnd? (refreshes ++ [r]) = firstEnd? refreshes := by
  cases refreshes <;> simp [firstEnd?, running]

/-- The latest refresh ends, or goes on: that makes a difference only if it is the first. -/
theorem Refresh.firstEnd?_amend (done : List Refresh) {r : Refresh} (r' : Refresh)
    (running : r.ended = none) :
    (firstEnd? (done ++ [r]) = none → (∀ x ∈ done, x.Succeeded) →
      firstEnd? (done ++ [r']) = r'.ended.map Prod.fst) ∧
    ∀ t, firstEnd? (done ++ [r]) = some t → firstEnd? (done ++ [r']) = some t := by
  cases done with
  | nil => simp [firstEnd?, running]
  | cons first rest =>
    refine ⟨?_, fun _ ended => ended⟩
    intro none finished
    obtain ⟨t, result, ended⟩ := finished first List.mem_cons_self
    simp [firstEnd?, ended] at none

/-- After a success there is a tag loop, if it is wanted. -/
theorem Scheduler.tagsPause?_of_absent {s : Scheduler} {policy : RefreshPolicy}
    (result : CatalogRefresh) (absent : s.tagsAfter policy (.done (.ok result)) = .absent) :
    policy.tagsPause? = none := by
  unfold tagsAfter startTags at absent
  cases loop : s.tagLoop <;> cases wanted : policy.tagsPause? <;> simp_all

/-- The scheduler is in time, with both of its loops. -/
structure Scheduler.InTime (s : Scheduler) (start : Instant) (policy : RefreshPolicy) (now : Instant)
    (c : Chronicle) : Prop where
  going : s.stopped = false
  unjoined : s.catalogLoop ≠ .joining
  refreshes : RegistryCache.InTime refreshPlan start policy.catalogPause? now s.catalogLoop.pace
    c.refreshes
  absent : s.tagLoop = .absent →
    c.passes = [] ∧ (policy.tagsPause? = none ∨ Refresh.firstEnd? c.refreshes = none)
  passes : s.tagLoop ≠ .absent → ∃ t, Refresh.firstEnd? c.refreshes = some t ∧
    RegistryCache.InTime passPlan t policy.tagsPause? now s.tagLoop.pace c.passes

/-! ## Pauses take time -/

theorem RefreshPolicy.interval?_eq_none_iff {minutes : UInt64} :
    interval? minutes = none ↔ minutes = 0 := by
  simp [interval?, ← UInt64.toNat_inj, UInt64.lt_iff_toNat_lt]

theorem RefreshPolicy.catalogPause?_eq_none_iff {p : RefreshPolicy} :
    p.catalogPause? = none ↔ p.catalogInterval = 0 := interval?_eq_none_iff

theorem RefreshPolicy.tagsPause?_eq_none_iff {p : RefreshPolicy} :
    p.tagsPause? = none ↔ p.tagsInterval = 0 := interval?_eq_none_iff

theorem RefreshPolicy.interval?_pos {minutes : UInt64} {pause : Duration}
    (some' : interval? minutes = some pause) : 0 < pause.inMillis := by
  unfold interval? at some'
  split at some'
  · cases some'
    rename_i positive
    have minutesPos : 0 < minutes.toNat := UInt64.lt_iff_toNat_lt.mp positive
    have secs : (UInt64.ofNat (min (minutes.toNat * 60) (UInt64.size - 1))).toNat =
        min (minutes.toNat * 60) (UInt64.size - 1) :=
      UInt64.toNat_ofNat_of_lt' (Nat.lt_of_le_of_lt (Nat.min_le_right _ _) (by decide))
    simp only [Duration.inMillis, Duration.inNanos, Duration.ofMinutes, Duration.ofSecs, secs]
    have size : 0 < UInt64.size - 1 := by decide
    omega
  · cases some'

theorem TagLoop.Lands.rests {policy : RefreshPolicy} {stopped : Bool} {now : Instant}
    {passed : Progress TagPass PassOutcome} {loop : TagLoop}
    (lands : loop.Lands policy stopped now passed) : ¬ loop.Due now := by
  cases lands with
  | waits | ends => simp [TagLoop.Due]
  | pauses again going outcome =>
    have later := RefreshPolicy.interval?_pos again
    rintro (spawned | ⟨wake, sleeping, early⟩)
    · cases spawned
    · cases sleeping
      exact absurd early (Nat.not_le.mpr (Nat.lt_add_of_pos_right later))

namespace Scheduler

variable {s : Scheduler} (latency : Call → Nat) (cache : MetadataCache) (now : Instant)

theorem settleCatalog_rests (going : s.stopped = false) :
    ¬ (s.settleCatalog latency cache now).next.catalogLoop.Due now := by
  unfold settleCatalog
  cases loop : s.catalogLoop with
  | spawned => simp [going, beginRefresh, takeWalk, CatalogLoop.Due]
  | sleeping wake =>
    by_cases late : wake ≤ now
    · simp [going, late, beginRefresh, takeWalk, CatalogLoop.Due]
    · simp [going, late, loop, CatalogLoop.Due]
  | walking | lingering | joining | ended => simp [going, loop, CatalogLoop.Due]

theorem settleTags_rests (going : s.stopped = false) :
    ¬ (s.settleTags latency cache now).next.tagLoop.Due now := by
  cases due : s.beginsPass now with
  | true =>
    let first := TagPass.begin cache now s.stopped
    obtain ⟨loop, lands, equal⟩ := s.takePass_lands latency first.cache now first.next
    rw [s.settleTags_of_begins latency cache now due, beginPass, Step.next_andThen, equal]
    exact lands.rests
  | false =>
    obtain equal | ⟨asked, _⟩ := s.settleTags_of_rests latency cache now due
    · rw [equal]
      rintro (spawned | ⟨wake, sleeping, late⟩)
      · simp_all [beginsPass]
      · simp_all [beginsPass]
    · rw [going] at asked
      cases asked

end Scheduler

/-! ## Staying in time -/

namespace Scheduler.InTime

variable {s : Scheduler} {start now later : Instant} {policy : RefreshPolicy} {c : Chronicle}

theorem initial : Scheduler.start.InTime now policy now .empty where
  going := rfl
  unjoined := by simp [Scheduler.start]
  refreshes := ⟨by simp [Chronicle.empty], by simp [Chronicle.empty], .nil, .early rfl⟩
  absent _ := ⟨rfl, .inr rfl⟩
  passes present := absurd rfl present

theorem elapse (inTime : s.InTime start policy now c) (after : now ≤ later)
    (rests : ∀ t, now ≤ t → t < later → ¬ s.Due t) : s.InTime start policy later c := by
  obtain ⟨going, unjoined, refreshes, absent, passes⟩ := inTime
  refine ⟨going, unjoined, refreshes.elapse after ?_, absent, ?_⟩
  · intro t from' before due
    exact rests t from' before (.inl (CatalogLoop.due_pace_iff.mp due))
  · intro there
    obtain ⟨t, ended, inTime⟩ := passes there
    refine ⟨t, ended, inTime.elapse after ?_⟩
    intro t from' before due
    exact rests t from' before (.inr (TagLoop.due_pace_iff.mp due))

theorem opens (inTime : s.InTime start policy now c) (due : s.catalogLoop.Due now)
    (arrival : Instant) :
    Scheduler.InTime { s with catalogLoop := .walking ⟨now, none, []⟩ arrival } start policy now
      { c with refreshes := c.refreshes ++ [.opened now () [.catalogPage none] none] } := by
  obtain ⟨going, unjoined, refreshes, absent, passes⟩ := inTime
  let first : CatalogWalk.Going := .waiting ⟨now, none, []⟩
  have leads : refreshPlan.Leads (refreshPlan.ask ()) first := rfl
  have opened := refreshes.opens (CatalogLoop.due_pace_iff.mpr due) leads (.waits _)
  have same : Refresh.firstEnd? (c.refreshes ++ [.opened now () [.catalogPage none] none]) =
      Refresh.firstEnd? c.refreshes := Refresh.firstEnd?_append rfl
  exact ⟨going, by simp, opened, same ▸ absent, same ▸ passes⟩

theorem page {cache : MetadataCache} {walk : CatalogWalk} {due : Instant}
    {reply : Except RegistryError CatalogPage} {walked : CatalogWalk.Going} {loop : CatalogLoop}
    (inTime : s.InTime start policy now c) (lives : s.Lives cache c)
    (waiting : s.catalogLoop = .walking walk due)
    (received : (walk.receive cache now reply).next = walked) (unjoined : loop ≠ .joining)
    (landed : loop.pace.Lands policy.catalogPause? now walked)
    (outcome : (∃ walk, walked = .waiting walk) ∨ ∃ result, walked = .done (.ok result)) :
    Scheduler.InTime { s with catalogLoop := loop, tagLoop := s.tagsAfter policy walked } start policy
      now { c with refreshes := c.refreshes.modifyLast (.hear now reply
        (walked.activity?.map CatalogWalk.call).toList walked.outcome?) } := by
  obtain ⟨going, _, refreshes, absent, passes⟩ := inTime
  rw [waiting] at refreshes
  obtain ⟨done, r, equal, finished, running⟩ := lives.reading waiting
  let heard := r.hear now reply (walked.activity?.map CatalogWalk.call).toList walked.outcome?
  obtain ⟨firstEnds, keepsEnd⟩ := Refresh.firstEnd?_amend done heard running
  have hears := refreshes.hears (received ▸ walk.receive_leads cache now reply) landed
  simp only [equal, List.modifyLast_concat] at absent passes hears ⊢
  refine ⟨going, unjoined, hears, ?_, ?_⟩
  · intro gone
    obtain same | ⟨_, spawned, _⟩ := s.tagsAfter_cases policy walked
    · obtain ⟨none, unwanted | unended⟩ := absent (same ▸ gone)
      · exact ⟨none, .inl unwanted⟩
      · refine ⟨none, ?_⟩
        obtain ⟨walk', rfl⟩ | ⟨result, rfl⟩ := outcome
        · exact .inr (firstEnds unended finished)
        · exact .inl (Scheduler.tagsPause?_of_absent result gone)
    · exact absurd (spawned.symm.trans gone) (by simp)
  · intro there
    obtain same | ⟨gone, spawned, wanted, result, rfl⟩ := s.tagsAfter_cases policy walked
    · obtain ⟨t, ended, inTime⟩ := passes (same ▸ there)
      exact ⟨t, keepsEnd t ended, by rw [same]; exact inTime⟩
    · -- the tag loop starts with the end of the first refresh
      obtain ⟨none, unwanted | unended⟩ := absent gone
      · exact absurd unwanted wanted
      · refine ⟨now, firstEnds unended finished, ?_⟩
        rw [spawned, none]
        exact ⟨by simp, by simp, .nil, .early rfl⟩

theorem tags (inTime : s.InTime start policy now c) (there : s.tagLoop ≠ .absent) {loop : TagLoop}
    (there' : loop ≠ .absent) {passes : List Pass}
    (goesOn : ∀ t, RegistryCache.InTime passPlan t policy.tagsPause? now s.tagLoop.pace c.passes →
      RegistryCache.InTime passPlan t policy.tagsPause? now loop.pace passes) :
    Scheduler.InTime { s with tagLoop := loop } start policy now { c with passes := passes } := by
  obtain ⟨t, ended, passes⟩ := inTime.passes there
  exact ⟨inTime.going, inTime.unjoined, inTime.refreshes, fun gone => absurd gone there',
    fun _ => ⟨t, ended, goesOn t passes⟩⟩

theorem passes_eq_nil (inTime : s.InTime start policy now c)
    (none : Refresh.firstEnd? c.refreshes = none) : c.passes = [] := by
  by_cases gone : s.tagLoop = .absent
  · exact (inTime.absent gone).1
  · obtain ⟨t, ended, _⟩ := inTime.passes gone
    rw [none] at ended
    cases ended

theorem passes_table (inTime : s.InTime start policy now c) {t : Instant}
    (wanted : policy.tagsPause? ≠ none) (ended : Refresh.firstEnd? c.refreshes = some t) :
    Timetable passPlan t policy.tagsPause? now c.passes := by
  by_cases gone : s.tagLoop = .absent
  · obtain ⟨_, unwanted | unended⟩ := inTime.absent gone
    · exact absurd unwanted wanted
    · rw [unended] at ended
      cases ended
  · obtain ⟨t', ended', inTime⟩ := inTime.passes gone
    rw [ended] at ended'
    cases ended'
    exact inTime.table

end Scheduler.InTime

/-! ## Moves -/

namespace Interleaving

variable {σ σ' : Interleaving} {e : Event} {j : Nat} {s s' : Scheduler} {c c' : Chronicle}
  {start : Instant} {policy : RefreshPolicy} {stages : List Stage} {stage : Stage}

/-- Nobody stops the loops, and no instant goes by at which they have something to do. -/
def Stage.Prompt (j : Nat) (stage : Stage) : Prop :=
  stage.event ≠ .stop j ∧ ∀ ms s, stage.event = .elapse ms → stage.before.schedulers j = some s →
    ∀ t, stage.before.now ≤ t → t < stage.before.now + ms → ¬ s.Due t

/-- A trace in which the loops are in time. -/
structure Timely (j : Nat) (σ : Interleaving) (stages : List Stage) (σ' : Interleaving) : Prop where
  trace : Trace σ stages σ'
  prompt : ∀ stage ∈ stages, stage.Prompt j

namespace Timely

theorem refl : Timely j σ [] σ := ⟨.refl, by simp⟩

theorem step {σ₁ σ₂ : Interleaving} (timely : Timely j σ stages σ₁) (move : Move σ₁ e σ₂)
    (prompt : Stage.Prompt j ⟨σ₁, e, σ₂⟩) : Timely j σ (stages ++ [⟨σ₁, e, σ₂⟩]) σ₂ := by
  refine ⟨timely.trace.step move, fun stage member => ?_⟩
  obtain member | rfl := List.mem_append.mp member |>.imp_right List.mem_singleton.mp
  · exact timely.prompt stage member
  · exact prompt

theorem turn {σ₁ : Interleaving} {role : Role} {action : Action} {step : Step Scheduler}
    (timely : Timely j σ stages σ₁) (present : σ₁.schedulers j = some s)
    (turn : s.Turn σ₁.cache σ₁.now role action step) :
    Timely j σ (stages ++ [⟨σ₁, .act (.loop role j) action step.begun none, σ₁.advance j step⟩])
      (σ₁.advance j step) :=
  timely.step (.loop present turn) ⟨by simp, by simp⟩

theorem elapse {σ₁ : Interleaving} (timely : Timely j σ stages σ₁) (ms : Nat)
    (present : σ₁.schedulers j = some s) (rests : ∀ t, t < σ₁.now + ms → ¬ s.Due t) :
    Timely j σ (stages ++ [⟨σ₁, .elapse ms, { σ₁ with now := σ₁.now + ms }⟩])
      { σ₁ with now := σ₁.now + ms } := by
  refine timely.step (.elapse σ₁ ms) ⟨by simp, fun ms' s' elapses there t _ before => ?_⟩
  cases elapses
  rw [present] at there
  cases there
  exact rests t before

end Timely

/-- Time passes by itself, and by nothing else. -/
theorem Move.now_cases (move : Move σ e σ') :
    (∃ ms, e = .elapse ms ∧ σ'.now = σ.now + ms) ∨ σ'.now = σ.now := by
  cases move with
  | elapse ms => exact .inl ⟨ms, rfl, rfl⟩
  | start | stop | begin | hear | quit | loop => exact .inr rfl

theorem Move.now_of_act {p : Party} {action : Action} {begun : List Call} {outcome : Option Outcome}
    (move : Move σ (.act p action begun outcome) σ') : σ'.now = σ.now := by
  obtain ⟨ms, elapses, _⟩ | same := move.now_cases
  · cases elapses
  · exact same

/-- What the loops wait for while time passes is not due. -/
theorem Move.rests (move : Move σ e σ') (prompt : Stage.Prompt j ⟨σ, e, σ'⟩)
    (present : σ.schedulers j = some s) :
    σ.now ≤ σ'.now ∧ ∀ t, σ.now ≤ t → t < σ'.now → ¬ s.Due t := by
  obtain ⟨ms, rfl, later⟩ | same := move.now_cases
  · rw [later]
    exact ⟨Nat.le_add_right _ _, prompt.2 ms s rfl present⟩
  · rw [same]
    exact ⟨Nat.le_refl _, fun t after before => absurd before (Nat.not_lt.mpr after)⟩

theorem Move.inTime (move : Move σ e σ') (present : σ.schedulers j = some s)
    (prompt : Stage.Prompt j ⟨σ, e, σ'⟩) (progresses : Progresses j σ s c e s' c')
    (lives : s.Lives σ.cache c) (inTime : s.InTime start σ.cache.policy σ.now c) :
    (∃ failure, s'.catalogLoop = .ended (.error failure)) ∨
      s'.InTime start σ.cache.policy σ'.now c' := by
  obtain ⟨after, rests⟩ := move.rests prompt present
  cases progresses with
  | rests => exact .inr (inTime.elapse after rests)
  | stops => exact absurd rfl prompt.1
  | refreshes due _ arrival =>
    rw [move.now_of_act]
    exact .inr (inTime.opens due arrival)
  | @page walk due waiting _ reply walked received loop lands =>
    rw [move.now_of_act]
    obtain failed | ⟨unjoined, landed, outcome⟩ := lands.cases
    · exact .inl failed
    · exact .inr (inTime.page lives waiting received unjoined landed outcome)
  | @leaves open' asked loop left action =>
    obtain asked | joining := asked
    · rw [inTime.going] at asked
      cases asked
    · exact absurd joining inTime.unjoined
  | @passes due passed begun loop lands =>
    rw [inTime.going] at begun lands
    have due := Scheduler.due_of_beginsPass due
    have leads : passPlan.Leads (passPlan.ask σ.cache.catalog.repositories) passed :=
      begun ▸ PassTally.visit_leads _ σ.cache σ.now σ.cache.catalog.repositories
    rw [move.now_of_act]
    exact .inr (inTime.tags due.ne_absent lands.ne_absent fun t passes =>
      passes.opens (TagLoop.due_pace_iff.mpr due) leads lands.pace)
  | @tags pass due waiting _ reply passed received loop lands =>
    rw [inTime.going] at received lands
    have leads : passPlan.Leads (fun more => passPlan.left pass (reply :: more)) passed :=
      received ▸ PassTally.visit_leads _ _ σ.now pass.rest
    rw [move.now_of_act]
    refine .inr (inTime.tags (by simp [waiting]) lands.ne_absent fun t passes => ?_)
    rw [waiting] at passes
    exact passes.hears leads lands.pace
  | ends open' asked =>
    rw [inTime.going] at asked
    cases asked

/-- Up to the failure of the first refresh, if that fails, a scheduler is in time. -/
theorem Timely.inTime (timely : Timely j σ stages σ') (fresh : σ.schedulers j = some .start) :
    ∃ s, σ'.schedulers j = some s ∧ ((∃ failure, s.catalogLoop = .ended (.error failure)) ∨
      s.InTime σ.now σ.cache.policy σ'.now (.of j stages)) := by
  obtain ⟨trace, prompt⟩ := timely
  induction trace with
  | refl => exact ⟨.start, fresh, .inr .initial⟩
  | @step stages e σ₁ σ₂ trace move inductionHypothesis =>
    obtain ⟨s, present, inTime⟩ :=
      inductionHypothesis fun stage member => prompt stage (List.mem_append_left _ member)
    obtain ⟨s', c', present', added, progresses⟩ := move.progresses present (.of j stages)
    refine ⟨s', present', ?_⟩
    obtain ⟨failure, ended⟩ | inTime := inTime
    · obtain ⟨t, there, ended⟩ := (Run.single move).ended ⟨s, present, ended⟩
      rw [present'] at there
      cases there
      exact .inl ⟨failure, ended⟩
    · obtain ⟨t, there, lives⟩ := trace.lives fresh
      rw [present] at there
      cases there
      rw [Chronicle.of_snoc, added, ← trace.policy]
      rw [← trace.policy] at inTime
      exact move.inTime present (prompt _ (by simp)) progresses lives inTime

/-- What is due can always be done at once, by two turns of the loops, and then time may pass. -/
theorem goes_on (present : σ.schedulers j = some s) (going : s.stopped = false) :
    ∃ turns σ', Timely j σ turns σ' ∧
      (∀ stage ∈ turns, ∃ role action begun,
        stage.event = .act (.loop role j) action begun none) ∧
      σ'.now = σ.now ∧ σ'.Stands j (¬ ·.Due σ'.now) := by
  have latency : Call → Nat := fun _ => 0
  have read : s.Turn σ.cache σ.now .catalog .runs _ := .runCatalog latency
  obtain ⟨σ₁, first, present₁, now₁⟩ := take_turn present read
  have passed : (s.settleCatalog latency σ.cache σ.now).next.Turn σ₁.cache σ₁.now .tags .runs _ :=
    .runTags latency
  obtain ⟨σ₂, second, present₂, now₂⟩ := take_turn present₁ passed
  refine ⟨_, σ₂, (Timely.refl.step first ⟨by simp, by simp⟩).step second ⟨by simp, by simp⟩, ?_,
    now₂.trans now₁, _, present₂, ?_⟩
  · intro stage member
    simp only [List.nil_append, List.cons_append, List.mem_cons, List.not_mem_nil,
      or_false] at member
    obtain rfl | rfl := member
    · exact ⟨.catalog, .runs, _, rfl⟩
    · exact ⟨.tags, .runs, _, rfl⟩
  · -- the tag loop runs last, and leaves the catalog loop where it is
    rintro (catalog | tags)
    · rw [passed.frame.2, now₂, now₁] at catalog
      exact s.settleCatalog_rests latency σ.cache σ.now going catalog
    · rw [now₂] at tags
      exact Scheduler.settleTags_rests latency σ₁.cache σ₁.now (read.frame.1.trans going) tags

/-- The first of the refreshes so far has not failed. -/
def FirstUnfailed (refreshes : List Refresh) : Prop :=
  ∀ r ∈ refreshes.head?, ∀ t failure, r.ended ≠ some (t, .error failure)

theorem Timely.inTime_of_unfailed (timely : Timely j σ stages σ')
    (fresh : σ.schedulers j = some .start) (unfailed : FirstUnfailed (Chronicle.of j stages).refreshes) :
    ∃ s, σ'.schedulers j = some s ∧ s.InTime σ.now σ.cache.policy σ'.now (.of j stages) := by
  obtain ⟨s, present, ⟨failure, ended⟩ | inTime⟩ := timely.inTime fresh
  · obtain ⟨_, there, lives⟩ := timely.trace.lives fresh
    rw [present] at there
    cases there
    obtain ⟨_, r, t, only, failed⟩ := lives.failed failure ended
    exact absurd failed (unfailed r (by rw [only]; rfl) t failure)
  · exact ⟨s, present, inTime⟩

/-- The scheduler in time.  As long as its first refresh does not fail, nobody stops it, and no instant
    goes by at which it has something to do:

    * its refreshes and passes ask all that its loops ask;
    * its refreshes keep a timetable: each asks page after page without a pause and ends with the last
      one, the first begins as the scheduler is started, and every other one as long after the end of
      the one before as the policy says; there is only one if the policy sets no interval;
    * its passes keep a timetable that starts as the first refresh ends, for ever, with or without
      further refreshes; a pass asks for the repositories that the catalog holds as it begins;
    * two schedulers whose refreshes start at one time, under one interval, and are answered alike, ask
      for the same pages at the same times, whatever becomes of their passes; two whose passes start at
      one time, under one interval, over the same repositories, and are answered alike, ask for the
      same tags at the same times, whatever becomes of their refreshes;
    * what it has to do at an instant it can always do without time passing. -/
theorem scheduler_timeline (timely : Timely j σ stages σ')
    (fresh : σ.schedulers j = some .start) (unfailed : FirstUnfailed (Chronicle.of j stages).refreshes) :
    let c := Chronicle.of j stages
    let policy := σ.cache.policy
    (c.refreshes.flatMap Round.asked = stages.flatMap (·.asks .catalog j) ∧
      c.passes.flatMap Round.asked = stages.flatMap (·.asks .tags j)) ∧
    (Timetable refreshPlan σ.now policy.catalogPause? σ'.now c.refreshes ∧
      (policy.catalogInterval = 0 → c.refreshes.length ≤ 1 ∧
        (σ.now < σ'.now → c.refreshes.length = 1))) ∧
    ((policy.tagsInterval = 0 → c.passes = []) ∧
      (Refresh.firstEnd? c.refreshes = none → c.passes = []) ∧
      ∀ t, policy.tagsInterval ≠ 0 → Refresh.firstEnd? c.refreshes = some t →
        Timetable passPlan t policy.tagsPause? σ'.now c.passes) ∧
    (∀ τ τ' k others, Timely k τ others τ' → τ.schedulers k = some .start →
      FirstUnfailed (Chronicle.of k others).refreshes →
      let d := Chronicle.of k others
      (τ.now = σ.now → τ.cache.policy.catalogInterval = policy.catalogInterval →
        ∀ behaves : Nat → Nat → Call → Nat × Except RegistryError CatalogPage,
          (∀ (i : Nat) (r : Refresh), c.refreshes[i]? = some r → r.Obeys (behaves i) σ'.now) →
          (∀ (i : Nat) (r : Refresh), d.refreshes[i]? = some r → r.Obeys (behaves i) τ'.now) →
          Agrees τ'.now c.refreshes d.refreshes) ∧
      (Refresh.firstEnd? d.refreshes = Refresh.firstEnd? c.refreshes →
        τ.cache.policy.tagsInterval = policy.tagsInterval →
        (∀ (i : Nat) (r r' : Pass), c.passes[i]? = some r → d.passes[i]? = some r' →
          r'.agenda = r.agenda) →
        ∀ behaves : Nat → Nat → Call → Nat × Except RegistryError (List String),
          (∀ (i : Nat) (r : Pass), c.passes[i]? = some r → r.Obeys (behaves i) σ'.now) →
          (∀ (i : Nat) (r : Pass), d.passes[i]? = some r → r.Obeys (behaves i) τ'.now) →
          Agrees τ'.now c.passes d.passes)) ∧
    ∃ turns σ'', Timely j σ' turns σ'' ∧
      (∀ stage ∈ turns, ∃ role action begun,
        stage.event = .act (.loop role j) action begun none) ∧
      σ''.now = σ'.now ∧ σ''.Stands j (¬ ·.Due σ''.now) := by
  obtain ⟨s, present, inTime⟩ := timely.inTime_of_unfailed fresh unfailed
  have table := inTime.refreshes.table
  -- without passes wanted, no refresh ever starts the tag loop
  have unwanted (zero : σ.cache.policy.tagsInterval = 0) : (Chronicle.of j stages).passes = [] := by
    obtain ⟨_, there, lives⟩ := timely.trace.lives fresh
    rw [present] at there
    cases there
    by_cases gone : s.tagLoop = .absent
    · exact (inTime.absent gone).1
    · refine absurd (RefreshPolicy.tagsPause?_eq_none_iff.mpr ?_) (lives.started gone).1
      rw [timely.trace.policy, zero]
  intro c policy
  refine ⟨timely.trace.asked_eq fresh, ⟨table, ?_⟩, ⟨unwanted, inTime.passes_eq_nil, ?_⟩, ?_,
    goes_on present inTime.going⟩
  · intro zero
    have once : policy.catalogPause? = none := RefreshPolicy.catalogPause?_eq_none_iff.mpr zero
    rw [once] at table
    have single := table.single
    refine ⟨single, fun later => ?_⟩
    have begun : c.refreshes ≠ [] := fun none => absurd later (Nat.not_lt.mpr (table.due none))
    exact Nat.le_antisymm single (List.length_pos_iff.mpr begun)
  · intro t wanted ended
    exact inTime.passes_table (RefreshPolicy.tagsPause?_eq_none_iff.not.mpr wanted) ended
  · intro τ τ' k others timely' fresh' unfailed' d
    obtain ⟨s', _, inTime'⟩ := timely'.inTime_of_unfailed fresh' unfailed'
    refine ⟨?_, ?_⟩
    · intro started interval behaves obeys obeys'
      have table' := inTime'.refreshes.table
      rw [started, RefreshPolicy.catalogPause?, interval] at table'
      exact table.agrees table' (fun _ _ _ _ _ => rfl) obeys obeys'
    · intro started interval agendas behaves obeys obeys'
      by_cases zero : policy.tagsInterval = 0
      · intro i r here
        rw [show c.passes = [] from unwanted zero] at here
        cases here
      cases ended : Refresh.firstEnd? c.refreshes with
      | none =>
        intro i r here
        rw [inTime.passes_eq_nil ended] at here
        cases here
      | some t =>
        have table := inTime.passes_table (RefreshPolicy.tagsPause?_eq_none_iff.not.mpr zero) ended
        have table' := inTime'.passes_table
          (RefreshPolicy.tagsPause?_eq_none_iff.not.mpr (interval ▸ zero)) (started.trans ended)
        rw [RefreshPolicy.tagsPause?, interval] at table'
        exact table.agrees table' agendas obeys obeys'

/-- Both intervals are a minute. -/
def everyMinute : RefreshPolicy := ⟨1, 1, 100⟩

def refusal : RegistryError := ⟨.registry, "refused"⟩

/-- A refresh that takes five milliseconds and a pass that takes seven more, and fails on its only
    repository, put the second refresh at a minute after five and the second pass at a minute after
    twelve. -/
theorem scheduler_timeline_two_rounds :
    ∃ stages σ', Timely 0 ((World.fresh everyMinute ()).start.interleaving none) stages σ' ∧
      (Chronicle.of 0 stages).refreshes.map Round.began = [0, 60005] ∧
      (Chronicle.of 0 stages).passes.map Round.began = [5, 60012] ∧
      (Chronicle.of 0 stages).passes.head?.map Round.heard = some [(12, .error refusal)] ∧
      Timetable refreshPlan 0 everyMinute.catalogPause? 60012 (Chronicle.of 0 stages).refreshes ∧
      Timetable passPlan 5 everyMinute.tagsPause? 60012 (Chronicle.of 0 stages).passes := by
  have page : Scheduler.Turn ⟨false, .walking ⟨0, none, []⟩ 0, .absent⟩ (.fresh everyMinute) 5
      _ _ _ := .page rfl rfl (fun _ => 0) (.ok ⟨["a"], none⟩)
  have tags (cache : MetadataCache) : Scheduler.Turn
      ⟨false, .sleeping 60005, .passing ⟨⟨5, 1, 0, 0⟩, "a", []⟩ 5⟩ cache 12 _ _ _ :=
    .tags rfl rfl (fun _ => 0) (.error refusal)
  -- while time passes, nothing is due
  have reading (t : Instant) : ¬ Scheduler.Due ⟨false, .walking ⟨0, none, []⟩ 0, .absent⟩ t := by
    simp [Scheduler.Due, CatalogLoop.Due, TagLoop.Due]
  have fetching (t : Instant) (before : t < 60005) : ¬ Scheduler.Due
      ⟨false, .sleeping 60005, .passing ⟨⟨5, 1, 0, 0⟩, "a", []⟩ 5⟩ t := by
    simpa [Scheduler.Due, CatalogLoop.Due, TagLoop.Due] using before
  have pausing (t : Instant) (before : t < 60005) :
      ¬ Scheduler.Due ⟨false, .sleeping 60005, .sleeping 60012⟩ t := by
    simpa [Scheduler.Due, CatalogLoop.Due, TagLoop.Due] using ⟨before, Nat.lt_add_right 7 before⟩
  have rereading (t : Instant) (before : t < 60012) :
      ¬ Scheduler.Due ⟨false, .walking ⟨60005, none, []⟩ 60005, .sleeping 60012⟩ t := by
    simpa [Scheduler.Due, CatalogLoop.Due, TagLoop.Due] using before
  have fresh : ((World.fresh everyMinute ()).start.interleaving none).schedulers 0 = some .start :=
    rfl
  have asks := Timely.refl.turn fresh (.runCatalog (fun _ => 0))
  have reads := (asks.elapse 5 rfl fun t _ => reading t).turn rfl page
  have passes := reads.turn rfl (.runTags (fun _ => 0))
  have fails := (passes.elapse 7 rfl fun t before => fetching t
    (Nat.lt_of_lt_of_le before (by decide))).turn rfl (tags _)
  have again := (fails.elapse 59993 rfl pausing).turn rfl (.runCatalog (fun _ => 0))
  have both := (again.elapse 7 rfl rereading).turn rfl (.runTags (fun _ => 0))
  obtain ⟨_, ⟨refreshes, _⟩, ⟨_, _, passes⟩, _⟩ := scheduler_timeline both fresh
    (by rintro r ⟨⟩ t failure ⟨⟩)
  exact ⟨_, _, both, rfl, rfl, rfl, refreshes, passes 5 (by decide) rfl⟩

end Interleaving

end RegistryCache
