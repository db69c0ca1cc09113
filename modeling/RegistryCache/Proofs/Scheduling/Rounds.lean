import Mathlib.Data.List.ModifyLast
import RegistryCache.Proofs.Interleaving.Traces
import RegistryCache.Proofs.Interleaving.Waiting

/-! # Rounds of the loops

The loops of a scheduler work in rounds: the catalog loop in refreshes, the tag loop in passes.  What
the rounds of a scheduler were is read off the stages of a trace (`Chronicle.of`).  `Progresses` lists
all that a stage can do to the loops and to their rounds, and the main statement is
`Interleaving.Move.progresses`: that is all.
-/

namespace RegistryCache

/-- A refresh or a pass: when it began and over what, which calls it has begun and which replies it has
    heard so far, and when and how it has ended.  One that is given up never ends. -/
structure Round (κ α ρ : Type) where
  began : Instant
  agenda : κ
  asked : List (Instant × Call)
  heard : List (Instant × α)
  ended : Option (Instant × ρ)

namespace Round

variable {κ α ρ : Type}

/-- A round that has just begun, and may be over at once. -/
def opened (now : Instant) (agenda : κ) (begun : List Call) (outcome : Option ρ) : Round κ α ρ :=
  ⟨now, agenda, begun.map (now, ·), [], outcome.map (now, ·)⟩

/-- A reply arrives. -/
def hear (now : Instant) (reply : α) (begun : List Call) (outcome : Option ρ) (r : Round κ α ρ) :
    Round κ α ρ :=
  { r with
    asked := r.asked ++ begun.map (now, ·)
    heard := r.heard ++ [(now, reply)]
    ended := outcome.map (now, ·) }

end Round

abbrev Refresh :=
  Round Unit (Except RegistryError CatalogPage) (Except RegistryError CatalogRefresh)

/-- A pass is over the repositories that the catalog holds when it begins. -/
abbrev Pass := Round (List String) (Except RegistryError (List String)) PassOutcome

/-- The rounds of a scheduler so far. -/
structure Chronicle where
  refreshes : List Refresh
  passes : List Pass

/-! ## When a round is due -/

/-- The loop has something to do that waits for nothing. -/
def CatalogLoop.Due (loop : CatalogLoop) (now : Instant) : Prop :=
  loop = .spawned ∨ ∃ wake, loop = .sleeping wake ∧ wake ≤ now

def TagLoop.Due (loop : TagLoop) (now : Instant) : Prop :=
  loop = .spawned ∨ ∃ wake, loop = .sleeping wake ∧ wake ≤ now

/-- Running the tag loop now begins a pass. -/
def Scheduler.beginsPass (s : Scheduler) (now : Instant) : Bool :=
  match s.tagLoop with
  | .spawned => true
  | .sleeping wake => !s.stopped && wake ≤ now
  | _ => false

theorem Scheduler.due_of_beginsPass {s : Scheduler} {now : Instant} (begins : s.beginsPass now = true) :
    s.tagLoop.Due now := by
  unfold beginsPass at begins
  cases loop : s.tagLoop with
  | spawned => exact .inl rfl
  | sleeping wake =>
    simp only [loop, Bool.and_eq_true, decide_eq_true_eq] at begins
    exact .inr ⟨wake, rfl, begins.2⟩
  | absent | passing | ended => simp [loop] at begins

theorem TagLoop.Due.ne_absent {loop : TagLoop} {now : Instant} (due : loop.Due now) :
    loop ≠ .absent := by
  rintro rfl
  simp [Due] at due

/-! ## Reading the rounds off a trace -/

namespace Chronicle

open Interleaving

def empty : Chronicle := ⟨[], []⟩

/-- What a turn of the catalog loop adds.  The loop begins a call by itself only to begin a refresh. -/
def addRefresh (c : Chronicle) (σ : Interleaving) (begun : List Call) : Action → Chronicle
  | .runs =>
    if begun = [] then c
    else { c with refreshes := c.refreshes ++ [.opened σ.now () begun none] }
  | .hears (.catalogWalk walk) reply =>
    let outcome := (walk.receive σ.cache σ.now reply).next.outcome?
    { c with refreshes := c.refreshes.modifyLast (.hear σ.now reply begun outcome) }
  | _ => c

/-- What a turn of the tag loop adds.  A pass over an empty catalog begins no call. -/
def addPass (c : Chronicle) (σ : Interleaving) (s : Scheduler) (begun : List Call) :
    Action → Chronicle
  | .runs =>
    let outcome := (TagPass.begin σ.cache σ.now s.stopped).next.outcome?
    if s.beginsPass σ.now then
      { c with passes := c.passes ++ [.opened σ.now σ.cache.catalog.repositories begun outcome] }
    else c
  | .hears (.tagPass pass) reply =>
    let outcome := (pass.receive σ.cache σ.now s.stopped reply).next.outcome?
    { c with passes := c.passes.modifyLast (.hear σ.now reply begun outcome) }
  | _ => c

def add (j : Nat) (c : Chronicle) (stage : Stage) : Chronicle :=
  match stage.event, stage.before.schedulers j with
  | .act (.loop role k) action begun _, some s =>
    if k = j then
      match role with
      | .catalog => c.addRefresh stage.before begun action
      | .tags => c.addPass stage.before s begun action
    else c
  | _, _ => c

/-- The rounds of a scheduler in the course of a trace. -/
def of (j : Nat) (stages : List Stage) : Chronicle := stages.foldl (add j) empty

@[simp] theorem of_nil (j : Nat) : of j [] = empty := rfl

@[simp] theorem of_snoc (j : Nat) (stages : List Stage) (stage : Stage) :
    of j (stages ++ [stage]) = (of j stages).add j stage := by
  simp [of]

/-- Rounds are added by the turns of the loops they belong to. -/
theorem add_of_ne {j : Nat} (c : Chronicle) {stage : Stage}
    (others : ∀ role, stage.event.party? ≠ some (.loop role j)) : c.add j stage = c := by
  unfold add
  split
  · rename_i role k action begun outcome s event _
    have distinct : k ≠ j := by
      rintro rfl
      exact others role (by rw [event]; rfl)
    exact if_neg distinct
  · rfl

end Chronicle

/-! ## Where a loop lands -/

/-- Where the catalog loop gets with a walk. -/
inductive CatalogLoop.Lands (policy : RefreshPolicy) (now : Instant) :
    CatalogWalk.Going → CatalogLoop → Prop where
  | waits (walk : CatalogWalk) (due : Instant) : Lands policy now (.waiting walk) (.walking walk due)
  | pauses {pause : Duration} (again : policy.catalogPause? = some pause) (result : CatalogRefresh) :
      Lands policy now (.done (.ok result)) (.sleeping (now + pause.inMillis))
  | lingers (once : policy.catalogPause? = none) (result : CatalogRefresh) :
      Lands policy now (.done (.ok result)) .lingering
  | ends (once : policy.catalogPause? = none) (result : CatalogRefresh) :
      Lands policy now (.done (.ok result)) (.ended (.ok ()))
  | fails (e : RegistryError) : Lands policy now (.done (.error e)) (.ended (.error e))

/-- Where the tag loop gets with a pass. -/
inductive TagLoop.Lands (policy : RefreshPolicy) (stopped : Bool) (now : Instant) :
    Progress TagPass PassOutcome → TagLoop → Prop where
  | waits (pass : TagPass) (due : Instant) :
      Lands policy stopped now (.waiting pass) (.passing pass due)
  | pauses {pause : Duration} (again : policy.tagsPause? = some pause) (going : stopped = false)
      (outcome : PassOutcome) :
      Lands policy stopped now (.done outcome) (.sleeping (now + pause.inMillis))
  | ends (finished : policy.tagsPause? = none ∨ stopped = true) (outcome : PassOutcome) :
      Lands policy stopped now (.done outcome) .ended

namespace Scheduler

variable (s : Scheduler) (latency : Call → Nat) (cache : MetadataCache) (now : Instant)

/-- Where the tag loop stands after a reply to the catalog loop: a success starts it, if it is wanted
    and was not started before. -/
def tagsAfter (policy : RefreshPolicy) : CatalogWalk.Going → TagLoop
  | .done (.ok _) => (s.startTags policy).tagLoop
  | _ => s.tagLoop

variable {s}

theorem takeWalk_lands (going : s.stopped = false) (walked : CatalogWalk.Going) :
    ∃ loop, loop.Lands cache.policy now walked ∧ (s.takeWalk latency cache now walked).next =
      { s with catalogLoop := loop, tagLoop := s.tagsAfter cache.policy walked } := by
  cases walked with
  | waiting walk => exact ⟨_, .waits walk _, rfl⟩
  | done result =>
    cases result with
    | error e => exact ⟨_, .fails e, rfl⟩
    | ok result =>
      -- the tag loop starts first, and nothing that follows moves it
      obtain ⟨started, equal⟩ : ∃ started, s.startTags cache.policy = { s with tagLoop := started } := by
        obtain equal | ⟨_, equal⟩ := s.startTags_cases cache.policy
        · exact ⟨s.tagLoop, equal⟩
        · exact ⟨.spawned, equal⟩
      simp only [takeWalk, afterRefresh, tagsAfter, equal, pauseCatalog, going]
      cases pause : cache.policy.catalogPause? with
      | some pause => exact ⟨_, .pauses ‹_› result, rfl⟩
      | none =>
        obtain ⟨_, left⟩ | ⟨_, left⟩ := leave_next ⟨false, s.catalogLoop, started⟩ cache
        · exact ⟨_, .ends pause result, left⟩
        · exact ⟨_, .lingers pause result, left⟩

variable (s)

theorem takePass_lands (walked : Progress TagPass PassOutcome) :
    ∃ loop, loop.Lands cache.policy s.stopped now walked ∧
      (s.takePass latency cache now walked).next = { s with tagLoop := loop } := by
  cases walked with
  | waiting pass => exact ⟨_, .waits pass _, rfl⟩
  | done outcome =>
    simp only [takePass, afterPass]
    cases pause : cache.policy.tagsPause? with
    | none => exact ⟨_, .ends (.inl pause) outcome, rfl⟩
    | some pause =>
      cases asked : s.stopped with
      | true => exact ⟨_, .ends (.inr rfl) outcome, rfl⟩
      | false => exact ⟨_, .pauses ‹_› rfl outcome, rfl⟩

/-- Only a loop that is due begins a refresh by itself. -/
theorem due_of_settleCatalog (begins : (s.settleCatalog latency cache now).begun ≠ []) :
    s.catalogLoop.Due now := by
  cases loop : s.catalogLoop with
  | spawned => exact .inl rfl
  | sleeping wake =>
    refine .inr ⟨wake, rfl, ?_⟩
    by_contra early
    apply begins
    simp only [settleCatalog, loop, if_neg early]
    split <;> simp
  | walking | lingering | joining | ended =>
    exfalso
    apply begins
    simp only [settleCatalog, loop]
    repeat' split
    all_goals simp

theorem settleTags_of_begins (begins : s.beginsPass now = true) :
    s.settleTags latency cache now = s.beginPass latency cache now := by
  unfold beginsPass at begins
  unfold settleTags
  cases loop : s.tagLoop with
  | spawned => rfl
  | sleeping wake =>
    simp only [loop, Bool.and_eq_true, Bool.not_eq_true', decide_eq_true_eq] at begins
    simp [begins]
  | absent | passing | ended => simp [loop] at begins

theorem settleTags_of_rests (rests : s.beginsPass now = false) :
    s.settleTags latency cache now = .pure cache s ∨
      (s.stopped = true ∧ ¬ s.tagLoop.Over ∧ (s.settleTags latency cache now).begun = [] ∧
        (s.settleTags latency cache now).next = { s with tagLoop := .ended }) := by
  obtain ⟨equal, _⟩ | ⟨asked, open', _, silent, equal⟩ | ⟨due, _⟩ :=
    s.settleTags_cases latency cache now
  · exact .inl equal
  · exact .inr ⟨asked, open', silent, equal⟩
  · -- the loop sleeps, and it is not yet time
    obtain spawned | ⟨going, wake, sleeping⟩ := due
    · simp [beginsPass, spawned] at rests
    · have early : ¬ wake ≤ now := by simpa [beginsPass, sleeping, going] using rests
      exact .inl (by simp [settleTags, sleeping, going, early])

end Scheduler

/-! ## All that a stage can do -/

/-- What a stage does to the loops of a scheduler and to their rounds. -/
inductive Progresses (j : Nat) (σ : Interleaving) (s : Scheduler) (c : Chronicle) :
    Event → Scheduler → Chronicle → Prop where
  /-- Nothing: somebody else moves, or a loop has nothing to do. -/
  | rests {e : Event} (running : e ≠ .stop j)
      (silent : ∀ role, e.party? = some (.loop role j) → e.begun = []) : Progresses j σ s c e s c
  | stops : Progresses j σ s c (.stop j) s.stop c
  | refreshes (due : s.catalogLoop.Due σ.now) (going : s.stopped = false) (arrival : Instant) :
      Progresses j σ s c (.act (.loop .catalog j) .runs [.catalogPage none] none)
        { s with catalogLoop := .walking ⟨σ.now, none, []⟩ arrival }
        { c with refreshes := c.refreshes ++ [.opened σ.now () [.catalogPage none] none] }
  | page {walk : CatalogWalk} {due : Instant} (waiting : s.catalogLoop = .walking walk due)
      (going : s.stopped = false) (reply : (Activity.catalogWalk walk).call.Reply)
      {walked : CatalogWalk.Going} (received : (walk.receive σ.cache σ.now reply).next = walked)
      {loop : CatalogLoop} (lands : loop.Lands σ.cache.policy σ.now walked) :
      Progresses j σ s c
        (.act (.loop .catalog j) (.hears (.catalogWalk walk) reply)
          (walked.activity?.map CatalogWalk.call).toList none)
        { s with catalogLoop := loop, tagLoop := s.tagsAfter σ.cache.policy walked }
        { c with refreshes := c.refreshes.modifyLast (.hear σ.now reply
            (walked.activity?.map CatalogWalk.call).toList walked.outcome?) }
  /-- The catalog loop reads no more, or has waited long enough for the tag loop. -/
  | leaves (open' : ¬ s.catalogLoop.Over) (asked : s.stopped = true ∨ s.catalogLoop = .joining)
      {loop : CatalogLoop} (left : loop = .joining ∨ loop = .ended (.ok ())) (action : Action) :
      Progresses j σ s c (.act (.loop .catalog j) action [] none) { s with catalogLoop := loop } c
  | passes (due : s.beginsPass σ.now = true) {passed : Progress TagPass PassOutcome}
      (begun : (TagPass.begin σ.cache σ.now s.stopped).next = passed) {loop : TagLoop}
      (lands : loop.Lands σ.cache.policy s.stopped σ.now passed) :
      Progresses j σ s c
        (.act (.loop .tags j) .runs (passed.activity?.map TagPass.call).toList none)
        { s with tagLoop := loop }
        { c with passes := c.passes ++ [.opened σ.now σ.cache.catalog.repositories
            (passed.activity?.map TagPass.call).toList passed.outcome?] }
  | tags {pass : TagPass} {due : Instant} (waiting : s.tagLoop = .passing pass due)
      (going : s.stopped = false) (reply : (Activity.tagPass pass).call.Reply)
      {passed : Progress TagPass PassOutcome}
      (received : (pass.receive σ.cache σ.now s.stopped reply).next = passed)
      {loop : TagLoop} (lands : loop.Lands σ.cache.policy s.stopped σ.now passed) :
      Progresses j σ s c
        (.act (.loop .tags j) (.hears (.tagPass pass) reply)
          (passed.activity?.map TagPass.call).toList none)
        { s with tagLoop := loop }
        { c with passes := c.passes.modifyLast (.hear σ.now reply
            (passed.activity?.map TagPass.call).toList passed.outcome?) }
  | ends (open' : ¬ s.tagLoop.Over) (asked : s.stopped = true) :
      Progresses j σ s c (.act (.loop .tags j) .runs [] none) { s with tagLoop := .ended } c

namespace Interleaving

variable {σ σ' : Interleaving} {e : Event} {j : Nat} {s : Scheduler} {role : Role} {action : Action}

theorem add_catalog (present : σ.schedulers j = some s) (c : Chronicle) (begun : List Call)
    (outcome : Option Outcome) :
    c.add j ⟨σ, .act (.loop .catalog j) action begun outcome, σ'⟩ = c.addRefresh σ begun action := by
  simp [Chronicle.add, present]

theorem add_tags (present : σ.schedulers j = some s) (c : Chronicle) (begun : List Call)
    (outcome : Option Outcome) :
    c.add j ⟨σ, .act (.loop .tags j) action begun outcome, σ'⟩ = c.addPass σ s begun action := by
  simp [Chronicle.add, present]

/-- A loop that begins nothing and stays where it is rests. -/
theorem progresses_idle (c : Chronicle) :
    Progresses j σ s c (.act (.loop role j) action [] none) s c :=
  .rests (by simp) fun _ _ => rfl

theorem progresses_runCatalog (c : Chronicle) (latency : Call → Nat) :
    let step := s.settleCatalog latency σ.cache σ.now
    Progresses j σ s c (.act (.loop .catalog j) .runs step.begun none) step.next
      (c.addRefresh σ step.begun .runs) := by
  intro step
  obtain ⟨equal, _⟩ | ⟨asked, open', equal⟩ | ⟨asked, lingering, equal⟩ | ⟨going, _, equal⟩ :=
    s.settleCatalog_cases latency σ.cache σ.now
  · simp only [step, equal]
    exact progresses_idle c
  · simp only [step, equal, Scheduler.begun_leave]
    obtain ⟨_, left⟩ | ⟨_, left⟩ := s.leave_next σ.cache
    · rw [left]
      exact .leaves open' (.inl asked) (.inr rfl) .runs
    · rw [left]
      exact .leaves open' (.inl asked) (.inl (if_pos asked)) .runs
  · simp only [step, equal]
    exact .leaves (by simp [lingering, CatalogLoop.Over]) (.inl asked) (.inl rfl) .runs
  · have due : s.catalogLoop.Due σ.now :=
      s.due_of_settleCatalog latency σ.cache σ.now (by rw [equal]; exact List.cons_ne_nil _ _)
    simp only [step, equal]
    exact .refreshes due going _

theorem progresses_runTags (c : Chronicle) (latency : Call → Nat) :
    let step := s.settleTags latency σ.cache σ.now
    Progresses j σ s c (.act (.loop .tags j) .runs step.begun none) step.next
      (c.addPass σ s step.begun .runs) := by
  intro step
  cases due : s.beginsPass σ.now with
  | true =>
    let first := TagPass.begin σ.cache σ.now s.stopped
    have policy : first.cache.policy = σ.cache.policy := by
      have same := congrArg MetadataCache.policy (PassTally.visit_withoutTagsJob
        ⟨σ.now, σ.cache.catalog.repositories.length, 0, 0⟩ σ.cache σ.now s.stopped
        σ.cache.catalog.repositories)
      exact same
    have begun : first.begun = (first.next.activity?.map TagPass.call).toList :=
      PassTally.visit_begun ..
    obtain ⟨loop, lands, equal⟩ := s.takePass_lands latency first.cache σ.now first.next
    rw [policy] at lands
    have begins : step.begun = (first.next.activity?.map TagPass.call).toList := by
      simp only [step, s.settleTags_of_begins latency σ.cache σ.now due, Scheduler.beginPass,
        Step.begun_andThen, Scheduler.begun_takePass, List.append_nil]
      exact begun
    have next : step.next = { s with tagLoop := loop } := by
      simp only [step, s.settleTags_of_begins latency σ.cache σ.now due]
      exact equal
    rw [begins, next, Chronicle.addPass, if_pos due]
    exact .passes due rfl lands
  | false =>
    have rests : c.addPass σ s step.begun .runs = c := by
      simp [Chronicle.addPass, due]
    rw [rests]
    obtain equal | ⟨asked, open', silent, next⟩ :=
      s.settleTags_of_rests latency σ.cache σ.now due
    · simp only [step, equal]
      exact progresses_idle c
    · simp only [step, silent, next]
      exact .ends open' asked

theorem progresses_join (c : Chronicle) :
    Progresses j σ s c (.act (.loop .catalog j) .joins (s.settleJoin σ.cache).begun none)
      (s.settleJoin σ.cache).next c := by
  rw [Scheduler.begun_settleJoin]
  obtain ⟨joining, _, equal⟩ | ⟨_, equal⟩ := s.settleJoin_cases σ.cache
  · rw [equal]
    exact .leaves (by simp [joining, CatalogLoop.Over]) (.inr joining) (.inr rfl) .joins
  · rw [equal]
    exact progresses_idle c

theorem progresses_page (c : Chronicle) (latency : Call → Nat) {walk : CatalogWalk} {due : Instant}
    (waiting : s.catalogLoop = .walking walk due) (going : s.stopped = false)
    (reply : (Activity.catalogWalk walk).call.Reply) :
    let step := s.receivePage walk latency σ.cache σ.now reply
    Progresses j σ s c (.act (.loop .catalog j) (.hears (.catalogWalk walk) reply) step.begun none)
      step.next (c.addRefresh σ step.begun (.hears (.catalogWalk walk) reply)) := by
  intro step
  let heard := walk.receive σ.cache σ.now reply
  have policy : heard.cache.policy = σ.cache.policy :=
    Activity.receive_policy σ.cache σ.now false (.catalogWalk walk) reply
  obtain ⟨loop, lands, equal⟩ :=
    Scheduler.takeWalk_lands latency heard.cache σ.now going heard.next
  rw [policy] at lands equal
  have begins : step.begun = (heard.next.activity?.map CatalogWalk.call).toList := by
    simp only [step, Scheduler.receivePage, Step.begun_andThen, Scheduler.begun_takeWalk,
      List.append_nil, CatalogWalk.begun_receive]
    rfl
  have next : step.next =
      { s with catalogLoop := loop, tagLoop := s.tagsAfter σ.cache.policy heard.next } := equal
  rw [begins, next]
  exact .page waiting going reply rfl lands

theorem progresses_tags (c : Chronicle) (latency : Call → Nat) {pass : TagPass} {due : Instant}
    (waiting : s.tagLoop = .passing pass due) (going : s.stopped = false)
    (reply : (Activity.tagPass pass).call.Reply) :
    let step := s.receiveTags pass latency σ.cache σ.now reply
    Progresses j σ s c (.act (.loop .tags j) (.hears (.tagPass pass) reply) step.begun none)
      step.next (c.addPass σ s step.begun (.hears (.tagPass pass) reply)) := by
  intro step
  let heard := pass.receive σ.cache σ.now s.stopped reply
  have policy : heard.cache.policy = σ.cache.policy :=
    Activity.receive_policy σ.cache σ.now s.stopped (.tagPass pass) reply
  obtain ⟨loop, lands, equal⟩ := s.takePass_lands latency heard.cache σ.now heard.next
  rw [policy] at lands
  have begins : step.begun = (heard.next.activity?.map TagPass.call).toList := by
    simp only [step, Scheduler.receiveTags, Step.begun_andThen, Scheduler.begun_takePass,
      List.append_nil, TagPass.begun_receive]
    rfl
  have next : step.next = { s with tagLoop := loop } := equal
  rw [begins, next]
  exact .tags waiting going reply rfl lands

/-- Loops that neither move nor are asked to stop stay as they are. -/
theorem Move.spares (move : Move σ e σ') (present : σ.schedulers j = some s) (running : e ≠ .stop j)
    (others : ∀ role, e.party? ≠ some (.loop role j)) : σ'.schedulers j = some s := by
  have elsewhere {k : Nat} (distinct : j ≠ k) (t : Scheduler) :
      (σ.put k t).schedulers j = some s := by
    simpa [put, Function.update_of_ne distinct] using present
  cases move with
  | elapse | begin | hear | quit => exact present
  | start free =>
    refine elsewhere ?_ _
    rintro rfl
    rw [present] at free
    cases free
  | stop =>
    refine elsewhere ?_ _
    rintro rfl
    exact running rfl
  | loop =>
    refine elsewhere ?_ _
    rintro rfl
    exact others _ rfl

/-- Every move progresses the loops of a scheduler in one of these ways, and their rounds with them. -/
theorem Move.progresses (move : Move σ e σ') (present : σ.schedulers j = some s) (c : Chronicle) :
    ∃ s' c', σ'.schedulers j = some s' ∧ c.add j ⟨σ, e, σ'⟩ = c' ∧ Progresses j σ s c e s' c' := by
  by_cases asked : e = .stop j
  · subst asked
    cases move with
    | stop there =>
      rw [present] at there
      cases there
      exact ⟨_, c, by simp [put], c.add_of_ne (by simp [Event.party?]), .stops⟩
  by_cases others : ∀ role, e.party? ≠ some (.loop role j)
  · exact ⟨s, c, move.spares present asked others, c.add_of_ne others,
      .rests asked fun role acts => absurd acts (others role)⟩
  obtain ⟨_, apart⟩ | ⟨_, apart⟩ | ⟨role, action, step, rfl, turn, rfl⟩ :=
    move.scheduler_cases present
  · exact absurd apart others
  · exact absurd apart others
  · refine ⟨step.next, _, by simp [advance, put], rfl, ?_⟩
    cases turn with
    | runCatalog latency =>
      rw [add_catalog present]
      exact progresses_runCatalog c latency
    | join =>
      rw [add_catalog present]
      exact progresses_join c
    | runTags latency =>
      rw [add_tags present]
      exact progresses_runTags c latency
    | page waiting going latency reply =>
      rw [add_catalog present]
      exact progresses_page c latency waiting going reply
    | tags waiting going latency reply =>
      rw [add_tags present]
      exact progresses_tags c latency waiting going reply

end Interleaving

end RegistryCache
