import RegistryCache.Proofs.Pagination.Refreshes
import RegistryCache.Proofs.Scheduling.Answers
import RegistryCache.Proofs.Scheduling.Rounds

/-! # The life of a scheduler

A scheduler works through its rounds one after the other, starts its tag loop once at most, and fails
with its first refresh or never.  All of it follows from one invariant (`Scheduler.Lives`), which ties
where the loops stand to the rounds that they have been through.  The main statement is
`Interleaving.scheduler_life_cycle`.
-/

namespace RegistryCache

/-- The refresh has returned, and not with an error. -/
def Refresh.Succeeded (r : Refresh) : Prop := ∃ t result, r.ended = some (t, .ok result)

/-! ## One round after the other -/

/-- Where a loop is with its rounds. -/
inductive Phase where
  | fresh
  | running
  | resting
  | gone
  deriving DecidableEq

def CatalogLoop.phase : CatalogLoop → Phase
  | spawned => .fresh
  | walking .. => .running
  | sleeping _ | lingering => .resting
  | joining | ended _ => .gone

def TagLoop.phase : TagLoop → Phase
  | absent | spawned => .fresh
  | passing .. => .running
  | sleeping _ => .resting
  | ended => .gone

theorem CatalogLoop.Due.phase {loop : CatalogLoop} {now : Instant} (due : loop.Due now) :
    loop.phase = .fresh ∨ loop.phase = .resting := by
  obtain rfl | ⟨wake, rfl, _⟩ := due
  · exact .inl rfl
  · exact .inr rfl

theorem TagLoop.Due.phase {loop : TagLoop} {now : Instant} (due : loop.Due now) :
    loop.phase = .fresh ∨ loop.phase = .resting := by
  obtain rfl | ⟨wake, rfl, _⟩ := due
  · exact .inl rfl
  · exact .inr rfl

section
variable {κ α ρ : Type}

/-- The latest round, as it is in a phase. -/
def Phase.Fits (P : Round κ α ρ → Prop) (r : Round κ α ρ) : Phase → Prop
  | fresh => False
  | running => r.ended = none
  | resting => P r
  | gone => True

/-- The rounds of a loop that begins none before the one before has come to its end. -/
inductive InTurn (P : Round κ α ρ → Prop) : Phase → List (Round κ α ρ) → Prop where
  | fresh : InTurn P .fresh []
  | later {done : List (Round κ α ρ)} {r : Round κ α ρ} {phase : Phase} (finished : ∀ r ∈ done, P r)
      (fits : phase.Fits P r) : InTurn P phase (done ++ [r])
  | unused : InTurn P .gone []

namespace InTurn

variable {P : Round κ α ρ → Prop} {phase phase' : Phase} {rounds : List (Round κ α ρ)}
  {r : Round κ α ρ}

theorem dropLast (turns : InTurn P phase rounds) : ∀ r ∈ rounds.dropLast, P r := by
  cases turns with
  | fresh | unused => simp
  | later finished fits => simpa using finished

/-- A loop that is not in a round has brought all to their end. -/
theorem settled (turns : InTurn P phase rounds) (rests : phase = .fresh ∨ phase = .resting) :
    ∀ r ∈ rounds, P r := by
  cases turns with
  | fresh | unused => simp
  | @later done last _ finished fits =>
    intro r member
    rcases List.mem_append.mp member with earlier | latest
    · exact finished r earlier
    · cases List.mem_singleton.mp latest
      obtain rfl | rfl := rests
      · exact fits.elim
      · exact fits

theorem next (turns : InTurn P phase rounds) (rests : phase = .fresh ∨ phase = .resting)
    (fits : phase'.Fits P r) : InTurn P phase' (rounds ++ [r]) :=
  .later (turns.settled rests) fits

theorem running (turns : InTurn P .running rounds) :
    ∃ done r, rounds = done ++ [r] ∧ (∀ r ∈ done, P r) ∧ r.ended = none := by
  cases turns with
  | later finished fits => exact ⟨_, _, rfl, finished, fits⟩

theorem leave (turns : InTurn P phase rounds) : InTurn P .gone rounds := by
  cases turns with
  | fresh | unused => exact .unused
  | later finished fits => exact .later finished trivial

end InTurn

end

/-- A refresh that has just heard something, where the catalog loop lands with it. -/
theorem CatalogLoop.Lands.fits {policy : RefreshPolicy} {now : Instant} {walked : CatalogWalk.Going}
    {loop : CatalogLoop} (lands : loop.Lands policy now walked) {r : Refresh}
    (ended : r.ended = walked.outcome?.map (now, ·)) : loop.phase.Fits Refresh.Succeeded r := by
  cases lands with
  | waits => exact ended
  | pauses again result | lingers once result => exact ⟨now, result, ended⟩
  | ends | fails => trivial

theorem TagLoop.Lands.fits {policy : RefreshPolicy} {stopped : Bool} {now : Instant}
    {passed : Progress TagPass PassOutcome} {loop : TagLoop}
    (lands : loop.Lands policy stopped now passed) {r : Pass}
    (ended : r.ended = passed.outcome?.map (now, ·)) : loop.phase.Fits (·.ended ≠ none) r := by
  cases lands with
  | waits => exact ended
  | pauses again going outcome => simp [Phase.Fits, TagLoop.phase, ended, Progress.outcome?]
  | ends => trivial

theorem TagLoop.Lands.ne_absent {policy : RefreshPolicy} {stopped : Bool} {now : Instant}
    {passed : Progress TagPass PassOutcome} {loop : TagLoop}
    (lands : loop.Lands policy stopped now passed) : loop ≠ .absent := by
  cases lands <;> simp

/-- A reply to the catalog loop leaves the tag loop where it is, or starts it. -/
theorem Scheduler.tagsAfter_cases (s : Scheduler) (policy : RefreshPolicy)
    (walked : CatalogWalk.Going) :
    s.tagsAfter policy walked = s.tagLoop ∨
      (s.tagLoop = .absent ∧ s.tagsAfter policy walked = .spawned ∧ policy.tagsPause? ≠ none ∧
        ∃ result, walked = .done (.ok result)) := by
  cases walked with
  | waiting walk => exact .inl rfl
  | done result =>
    cases result with
    | error e => exact .inl rfl
    | ok result =>
      simp only [tagsAfter, startTags]
      split
      case h_1 pause absent wanted => exact .inr ⟨absent, rfl, by simp [wanted], result, rfl⟩
      case h_2 => exact .inl rfl

namespace Progresses

variable {j : Nat} {σ : Interleaving} {s s' : Scheduler} {c c' : Chronicle} {e : Event}

/-- A tag loop that was started is there for ever. -/
theorem started (progresses : Progresses j σ s c e s' c')
    (present : s.tagLoop ≠ .absent) : s'.tagLoop ≠ .absent := by
  cases progresses with
  | rests | stops | refreshes | leaves => exact present
  | @page _ _ _ _ _ walked =>
    obtain same | ⟨absent, _⟩ := s.tagsAfter_cases σ.cache.policy walked
    · exact same ▸ present
    · exact absurd absent present
  | passes _ _ lands | tags _ _ _ _ lands => exact lands.ne_absent
  | ends => simp

/-- The tag loop asks for tags when it is there. -/
theorem asks (progresses : Progresses j σ s c e s' c')
    (acts : e.party? = some (.loop .tags j)) (asks : e.begun ≠ []) : s.tagLoop ≠ .absent := by
  cases progresses with
  | rests _ silent => exact absurd (silent .tags acts) asks
  | passes due => exact (Scheduler.due_of_beginsPass due).ne_absent
  | tags waiting => simp [waiting]
  | ends => exact absurd rfl asks
  | stops | refreshes | page | leaves => cases acts

end Progresses

/-! ## The invariant -/

/-- How the loops of a scheduler stand to the rounds that they have been through. -/
structure Scheduler.Lives (s : Scheduler) (cache : MetadataCache) (c : Chronicle) : Prop where
  refreshes : InTurn Refresh.Succeeded s.catalogLoop.phase c.refreshes
  passes : InTurn (·.ended ≠ none) s.tagLoop.phase c.passes
  ready : (∃ r ∈ c.refreshes, r.Succeeded) → cache.catalog.ready = true
  started : s.tagLoop ≠ .absent →
    cache.policy.tagsPause? ≠ none ∧ ∃ r ∈ c.refreshes, r.Succeeded
  failed : ∀ e, s.catalogLoop = .ended (.error e) →
    s.tagLoop = .absent ∧ ∃ r t, c.refreshes = [r] ∧ r.ended = some (t, .error e)

namespace Scheduler.Lives

variable {s : Scheduler} {cache cache' : MetadataCache} {c : Chronicle} {now : Instant}
  {walk : CatalogWalk} {due : Instant}

/-- As long as the catalog is not ready, no refresh has succeeded, so nothing has started the tag
    loop. -/
theorem never (lives : s.Lives cache c) (unready : cache.catalog.ready = false) :
    (¬ ∃ r ∈ c.refreshes, r.Succeeded) ∧ s.tagLoop = .absent := by
  have never : ¬ ∃ r ∈ c.refreshes, r.Succeeded := by
    intro succeeded
    rw [lives.ready succeeded] at unready
    cases unready
  refine ⟨never, ?_⟩
  by_contra present
  exact never (lives.started present).2

/-- A tag loop that waits for tags is in its latest pass. -/
theorem passing {pass : TagPass} (lives : s.Lives cache c) (waiting : s.tagLoop = .passing pass due) :
    ∃ done r, c.passes = done ++ [r] ∧ (∀ r ∈ done, Round.ended r ≠ none) ∧ r.ended = none := by
  have passes := lives.passes
  rw [waiting] at passes
  exact passes.running

/-- A catalog loop that waits for a page is in its latest refresh. -/
theorem reading (lives : s.Lives cache c) (waiting : s.catalogLoop = .walking walk due) :
    ∃ done r, c.refreshes = done ++ [r] ∧ (∀ r ∈ done, Refresh.Succeeded r) ∧ r.ended = none := by
  have refreshes := lives.refreshes
  rw [waiting] at refreshes
  exact refreshes.running

/-- As long as the catalog is not ready, that is the first one. -/
theorem first (lives : s.Lives cache c) (waiting : s.catalogLoop = .walking walk due)
    (unready : cache.catalog.ready = false) : ∃ r, c.refreshes = [r] ∧ r.ended = none := by
  obtain ⟨done, r, equal, finished, running⟩ := lives.reading waiting
  cases done with
  | nil => exact ⟨r, equal, running⟩
  | cons first rest =>
    have succeeded : ∃ r ∈ c.refreshes, r.Succeeded :=
      ⟨first, by simp [equal], finished first List.mem_cons_self⟩
    exact absurd succeeded (lives.never unready).1

theorem elsewhere (lives : s.Lives cache c) (policy : cache'.policy = cache.policy)
    (ready : cache.catalog.ready = true → cache'.catalog.ready = true) : s.Lives cache' c :=
  ⟨lives.refreshes, lives.passes, fun succeeded => ready (lives.ready succeeded),
    policy ▸ lives.started, lives.failed⟩

theorem opens (lives : s.Lives cache c) (ready : s.catalogLoop.Due now) {r : Refresh}
    (running : r.ended = none) : Scheduler.Lives { s with catalogLoop := .walking walk due } cache
      { c with refreshes := c.refreshes ++ [r] } := by
  -- the new refresh has not succeeded yet
  have same : (∃ x ∈ c.refreshes ++ [r], Refresh.Succeeded x) ↔
      ∃ x ∈ c.refreshes, Refresh.Succeeded x := by
    simp [Refresh.Succeeded, running, or_and_right, exists_or]
  exact ⟨lives.refreshes.next ready.phase running, lives.passes, fun new => lives.ready (same.mp new),
    fun present => ⟨(lives.started present).1, same.mpr (lives.started present).2⟩, by simp⟩

theorem page {reply : Except RegistryError CatalogPage} {walked : CatalogWalk.Going}
    {loop : CatalogLoop} (lives : s.Lives cache c) (waiting : s.catalogLoop = .walking walk due)
    (received : (walk.receive cache now reply).next = walked)
    (lands : loop.Lands cache.policy now walked) (begun : List Call) (kept : s.Lives cache' c)
    (policy : cache'.policy = cache.policy)
    (ready : ∀ result, walked = .done (.ok result) → cache'.catalog.ready = true) :
    Scheduler.Lives { s with catalogLoop := loop, tagLoop := s.tagsAfter cache.policy walked } cache'
      { c with refreshes := c.refreshes.modifyLast (.hear now reply begun walked.outcome?) } := by
  obtain ⟨done, r, equal, finished, running⟩ := lives.reading waiting
  let heard := r.hear now reply begun walked.outcome?
  have phase : (s.tagsAfter cache.policy walked).phase = s.tagLoop.phase := by
    obtain same | ⟨absent, spawned, _⟩ := s.tagsAfter_cases cache.policy walked
    · rw [same]
    · rw [absent, spawned]
      rfl
  simp only [equal, List.modifyLast_concat]
  refine ⟨.later finished (lands.fits rfl), phase ▸ lives.passes, ?_, ?_, ?_⟩
  · rintro ⟨other, member, succeeded⟩
    obtain member | rfl := List.mem_append.mp member |>.imp_right List.mem_singleton.mp
    · exact kept.ready ⟨other, equal ▸ List.mem_append_left _ member, succeeded⟩
    · -- the refresh succeeds right now
      obtain ⟨t, result, ended⟩ := succeeded
      cases walked with
      | waiting walk => cases ended
      | done outcome =>
        cases ended
        exact ready result rfl
  · intro present
    obtain same | ⟨_, _, wanted, result, rfl⟩ := s.tagsAfter_cases cache.policy walked
    · obtain ⟨wanted, other, member, succeeded⟩ := kept.started (same ▸ present)
      rw [equal, List.mem_append, List.mem_singleton] at member
      obtain member | rfl := member
      · exact ⟨wanted, other, List.mem_append_left _ member, succeeded⟩
      · obtain ⟨t, result, ended⟩ := succeeded
        rw [running] at ended
        cases ended
    · exact ⟨policy ▸ wanted, heard, by simp [heard], now, result, rfl⟩
  · rintro e rfl
    cases lands with
    | fails =>
      obtain ⟨_, _, unready, _⟩ := (walk.receive_fails_iff cache now).mp received
      obtain ⟨r', only, _⟩ := lives.first waiting unready
      refine ⟨(lives.never unready).2, ?_⟩
      rw [equal] at only
      cases done with
      | nil => exact ⟨heard, now, rfl, rfl⟩
      | cons => simp at only

/-- Whatever the tag loop does, the catalog loop and its refreshes stay as they are. -/
theorem tags (lives : s.Lives cache c) (present : s.tagLoop ≠ .absent) {loop : TagLoop}
    {passes : List Pass} (turns : InTurn (·.ended ≠ none) loop.phase passes) :
    Scheduler.Lives { s with tagLoop := loop } cache { c with passes := passes } :=
  ⟨lives.refreshes, turns, lives.ready, fun _ => lives.started present,
    fun e ended => absurd (lives.failed e ended).1 present⟩

end Scheduler.Lives

namespace Interleaving

variable {σ σ' : Interleaving} {e : Event} {j : Nat} {s s' : Scheduler} {c c' : Chronicle}

/-- The page that a catalog loop hears does to the cache what it does to the walk. -/
theorem Move.cache_of_page {walk : CatalogWalk} {reply : (Activity.catalogWalk walk).call.Reply}
    {begun : List Call} {outcome : Option Outcome}
    (move : Move σ (.act (.loop .catalog j) (.hears (.catalogWalk walk) reply) begun outcome) σ') :
    σ'.cache = (walk.receive σ.cache σ.now reply).cache := by
  cases move with
  | loop present turn =>
    cases turn with
    | page => simp [advance]

theorem Move.lives (move : Move σ e σ') (progresses : Progresses j σ s c e s' c')
    (lives : s.Lives σ.cache c) : s'.Lives σ'.cache c' := by
  have kept : s.Lives σ'.cache c := lives.elsewhere move.policy move.ready
  cases progresses with
  | rests => exact kept
  | stops => exact ⟨kept.refreshes, kept.passes, kept.ready, kept.started, kept.failed⟩
  | refreshes due => exact kept.opens due rfl
  | @page walk due waiting going reply walked received loop lands =>
    refine lives.page waiting received lands _ kept move.policy ?_
    rintro result rfl
    rw [move.cache_of_page]
    exact walk.ready_of_receive σ.cache σ.now received
  | @leaves open' asked loop left action =>
    have gone : loop.phase = .gone := by
      obtain rfl | rfl := left <;> rfl
    refine ⟨gone ▸ kept.refreshes.leave, kept.passes, kept.ready, kept.started, ?_⟩
    rintro e rfl
    simp at left
  | passes due begun lands =>
    have due := Scheduler.due_of_beginsPass due
    exact kept.tags due.ne_absent (kept.passes.next due.phase (lands.fits rfl))
  | @tags pass due waiting going reply passed received loop lands =>
    obtain ⟨done, r, equal, finished, running⟩ := kept.passing waiting
    refine kept.tags (by simp [waiting]) ?_
    rw [equal, List.modifyLast_concat]
    exact .later finished (lands.fits rfl)
  | ends open' asked =>
    exact kept.tags (fun absent => open' (.inl absent)) kept.passes.leave

variable {stages : List Stage} {stage : Stage}

theorem Trace.lives (trace : Trace σ stages σ') (fresh : σ.schedulers j = some .start) :
    ∃ s, σ'.schedulers j = some s ∧ s.Lives σ'.cache (.of j stages) := by
  induction trace with
  | refl =>
    exact ⟨.start, fresh, .fresh, .fresh, by simp [Chronicle.empty],
      by simp [Scheduler.start], by simp [Scheduler.start]⟩
  | @step stages e σ₁ σ₂ trace move inductionHypothesis =>
    obtain ⟨s, present, lives⟩ := inductionHypothesis
    obtain ⟨s', c', present', added, progresses⟩ := move.progresses present (.of j stages)
    exact ⟨s', present', by rw [Chronicle.of_snoc, added]; exact move.lives progresses lives⟩

/-! ## What the rounds account for -/

/-- The calls that a loop of a scheduler begins at a stage. -/
def Stage.asks (role : Role) (j : Nat) (stage : Stage) : List (Instant × Call) :=
  if stage.event.party? = some (.loop role j) then
    stage.event.begun.map (stage.before.now, ·)
  else []

/-- What a loop begins at a stage, its rounds ask. -/
theorem asked_of_progresses (σ' : Interleaving) (progresses : Progresses j σ s c e s' c')
    (lives : s.Lives σ.cache c) :
    c'.refreshes.flatMap Round.asked =
      c.refreshes.flatMap Round.asked ++ Stage.asks .catalog j ⟨σ, e, σ'⟩ ∧
    c'.passes.flatMap Round.asked =
      c.passes.flatMap Round.asked ++ Stage.asks .tags j ⟨σ, e, σ'⟩ := by
  cases progresses with
  | rests _ silent =>
    have nothing (role : Role) : Stage.asks role j ⟨σ, e, σ'⟩ = [] := by
      unfold Stage.asks
      split
      · rename_i acts
        rw [silent role acts]
        rfl
      · rfl
    simp [nothing]
  | stops | leaves | ends => simp [Stage.asks, Event.party?, Event.begun]
  | refreshes | passes => simp [Stage.asks, Event.party?, Event.begun, Round.opened]
  | page waiting =>
    obtain ⟨done, r, equal, _⟩ := lives.reading waiting
    simp [equal, List.modifyLast_concat, Round.hear, Stage.asks, Event.party?, Event.begun]
  | tags waiting =>
    obtain ⟨done, r, equal, _⟩ := lives.passing waiting
    simp [equal, List.modifyLast_concat, Round.hear, Stage.asks, Event.party?, Event.begun]

/-- The rounds of a scheduler ask all that its loops ever ask, in that order. -/
theorem Trace.asked_eq (trace : Trace σ stages σ') (fresh : σ.schedulers j = some .start) :
    (Chronicle.of j stages).refreshes.flatMap Round.asked = stages.flatMap (·.asks .catalog j) ∧
      (Chronicle.of j stages).passes.flatMap Round.asked = stages.flatMap (·.asks .tags j) := by
  induction trace with
  | refl => exact ⟨rfl, rfl⟩
  | @step stages e σ₁ σ₂ trace move inductionHypothesis =>
    obtain ⟨s, there, lives⟩ := trace.lives fresh
    obtain ⟨_, c', _, added, progresses⟩ := move.progresses there (.of j stages)
    obtain ⟨refreshes, passes⟩ := asked_of_progresses σ₂ progresses lives
    rw [Chronicle.of_snoc, added, refreshes, passes, inductionHypothesis.1, inductionHypothesis.2]
    simp

/-! ## The start of the tag loop -/

/-- The tag loop of a scheduler comes into being. -/
def Stage.startsTags (j : Nat) (stage : Stage) : Bool :=
  match stage.before.schedulers j, stage.after.schedulers j with
  | some s, some s' => s.tagLoop = .absent ∧ s'.tagLoop ≠ .absent
  | _, _ => false

theorem Move.started (move : Move σ e σ') (stands : σ.Stands j (·.tagLoop ≠ .absent)) :
    σ'.Stands j (·.tagLoop ≠ .absent) := by
  obtain ⟨s, there, present⟩ := stands
  obtain ⟨s', _, there', _, progresses⟩ := move.progresses there .empty
  exact ⟨s', there', progresses.started present⟩

theorem Trace.countP_startsTags (trace : Trace σ stages σ') (fresh : σ.schedulers j = some .start)
    (present : σ'.schedulers j = some s) :
    stages.countP (·.startsTags j) = if s.tagLoop = .absent then 0 else 1 := by
  induction trace generalizing s with
  | refl =>
    rw [fresh] at present
    cases present
    rfl
  | @step stages e σ₁ σ₂ trace move inductionHypothesis =>
    obtain ⟨before, there⟩ := trace.present fresh
    obtain ⟨s', _, there', _, progresses⟩ := move.progresses there .empty
    rw [present] at there'
    cases there'
    have starts : Stage.startsTags j ⟨σ₁, e, σ₂⟩ =
        decide (before.tagLoop = .absent ∧ s.tagLoop ≠ .absent) := by
      simp [Stage.startsTags, there, present]
    rw [List.countP_append, List.countP_singleton, inductionHypothesis there, starts]
    have kept := progresses.started
    by_cases absent : before.tagLoop = .absent <;> by_cases gone : s.tagLoop = .absent <;>
      simp_all

/-! ## The failure of the first refresh -/

/-- The page that a stage brings to the catalog loop of a scheduler fails its walk, and there is nothing
    to serve. -/
def Stage.Fails (j : Nat) (e : RegistryError) (stage : Stage) : Prop :=
  ∃ walk reply begun reason,
    stage.event = .act (.loop .catalog j) (.hears (.catalogWalk walk) reply) begun none ∧
      Breaks walk.cursor reply reason ∧ stage.before.cache.catalog.ready = false ∧
      e = ⟨.catalogUnavailable, reason.message⟩

variable {failure : RegistryError}

theorem Move.fails (move : Move σ e σ') (fails : Stage.Fails j failure ⟨σ, e, σ'⟩) :
    σ'.Stands j (·.catalogLoop = .ended (.error failure)) := by
  obtain ⟨walk, reply, begun, reason, rfl, breaks, unready, rfl⟩ := fails
  cases move with
  | @loop _ s _ _ step present turn =>
    refine ⟨step.next, by simp [advance, put], ?_⟩
    cases turn with
    | page waiting going latency reply =>
      have failed := (walk.receive_fails_iff σ.cache σ.now).mpr ⟨reason, breaks, unready, rfl⟩
      rw [Scheduler.receivePage, Step.next_andThen, failed]
      rfl

theorem Move.unready (move : Move σ e σ') (fails : Stage.Fails j failure ⟨σ, e, σ'⟩) :
    σ'.cache.catalog.ready = false := by
  obtain ⟨walk, reply, begun, reason, rfl, breaks, unready, rfl⟩ := fails
  obtain ⟨notices, equal⟩ := walk.receive_of_breaks σ.cache σ.now breaks
  rw [move.cache_of_page, equal]
  exact unready

/-- A catalog loop that ends in an error does so with the page that fails its first refresh. -/
theorem fails_of_progresses (σ' : Interleaving) (progresses : Progresses j σ s c e s' c')
    (lives : s.Lives σ.cache c)
    (ended : s'.catalogLoop = .ended (.error failure)) :
    s.catalogLoop = .ended (.error failure) ∨
      (c.refreshes.length = 1 ∧ Stage.Fails j failure ⟨σ, e, σ'⟩) := by
  cases progresses with
  | rests | stops | passes | tags | ends => exact .inl ended
  | refreshes => cases ended
  | @page walk due waiting going reply walked received loop lands =>
    cases ended
    cases lands with
    | fails =>
      obtain ⟨reason, breaks, unready, equal⟩ :=
        (walk.receive_fails_iff σ.cache σ.now).mp received
      obtain ⟨r, only, _⟩ := lives.first waiting unready
      exact .inr ⟨by rw [only]; rfl, walk, reply, _, reason, rfl, breaks, unready, equal⟩
  | leaves _ _ left =>
    cases ended
    simp at left

theorem Trace.fails_iff (trace : Trace σ stages σ') (fresh : σ.schedulers j = some .start)
    (present : σ'.schedulers j = some s) :
    s.catalogLoop = .ended (.error failure) ↔
      ∃ before stage after, stages = before ++ stage :: after ∧
        (Chronicle.of j before).refreshes.length = 1 ∧ stage.Fails j failure := by
  constructor
  · intro ended
    induction trace generalizing s with
    | refl =>
      rw [fresh] at present
      cases present
      cases ended
    | @step stages e σ₁ σ₂ trace move inductionHypothesis =>
      obtain ⟨t, there, lives⟩ := trace.lives fresh
      obtain ⟨s', _, there', _, progresses⟩ := move.progresses there (.of j stages)
      rw [present] at there'
      cases there'
      obtain already | ⟨first, fails⟩ := fails_of_progresses σ₂ progresses lives ended
      · obtain ⟨before, stage, after, rfl, first, fails⟩ := inductionHypothesis there already
        exact ⟨before, stage, after ++ [⟨σ₁, e, σ₂⟩], by simp, first, fails⟩
      · exact ⟨stages, ⟨σ₁, e, σ₂⟩, [], rfl, first, fails⟩
  · rintro ⟨before, stage, after, rfl, _, fails⟩
    obtain ⟨_, move, later⟩ := trace.around
    obtain ⟨t, there, ended⟩ := later.run.ended (move.fails fails)
    rw [present] at there
    cases there
    exact ended

/-- A catalog gets ready by a walk that somebody completes. -/
theorem Trace.completes (trace : Trace σ stages σ') (unready : σ.cache.catalog.ready = false)
    (ready : σ'.cache.catalog.ready = true) :
    ∃ before stage after, stages = before ++ stage :: after ∧
      ∃ action, stage.event.action? = some action ∧ action.CompletesWalk := by
  induction trace with
  | refl =>
    rw [unready] at ready
    cases ready
  | @step stages e σ₁ σ₂ trace move inductionHypothesis =>
    by_cases completes : ∃ action, e.action? = some action ∧ action.CompletesWalk
    · exact ⟨stages, ⟨σ₁, e, σ₂⟩, [], rfl, completes⟩
    · have same := (move.catalog_eq fun action acts finished => completes ⟨action, acts, finished⟩).1
      obtain ⟨before, stage, after, rfl, completes⟩ := inductionHypothesis (same ▸ ready)
      exact ⟨before, stage, after ++ [⟨σ₁, e, σ₂⟩], by simp, completes⟩

/-- Whoever completes a walk waits for its last page, so it is no catalog loop that has ended. -/
theorem Move.completes_other {result : Except RegistryError Unit} {action : Action}
    (move : Move σ e σ') (ended : σ.Stands j (·.catalogLoop = .ended result))
    (acts : e.action? = some action) (completes : action.CompletesWalk) :
    e.party? ≠ some (.loop .catalog j) := by
  intro party
  obtain ⟨cursor, page, brings, _⟩ := completes
  obtain ⟨s, there, ended⟩ := ended
  cases move with
  | elapse | start | stop => cases acts
  | begin | hear | quit => cases party
  | @loop k t role action' step present turn =>
    cases party
    cases acts
    rw [there] at present
    cases present
    cases turn with
    | runCatalog | join => cases brings
    | page waiting =>
      rw [ended] at waiting
      cases waiting

/-! ## The whole life -/

theorem Trace.asks (trace : Trace σ stages σ') (fresh : σ.schedulers j = some .start)
    (member : stage ∈ stages) (acts : stage.event.party? = some (.loop .tags j))
    (asks : stage.event.begun ≠ []) :
    stage.before.cache.catalog.ready = true ∧ σ'.Stands j (·.tagLoop ≠ .absent) := by
  obtain ⟨first, last, rfl⟩ := List.append_of_mem member
  obtain ⟨before, move, after⟩ := trace.around
  obtain ⟨s, there, lives⟩ := before.lives fresh
  obtain ⟨_, _, _, _, progresses⟩ := move.progresses there (.of j first)
  have present := progresses.asks acts asks
  exact ⟨lives.ready (lives.started present).2,
    after.run.keeps (move.started ⟨s, there, present⟩) Move.started⟩

/-- The life of a scheduler, whatever else goes on over its cache, and whenever it is asked to stop:

    * no refresh and no pass begins before the one before it has come to its end, and all refreshes but
      the latest have succeeded;
    * its tag loop is started once at most, never if the policy wants none, and never before a refresh
      has succeeded; whenever it asks for tags the catalog is ready;
    * the catalog loop ends in an error just when a page fails its first refresh while the catalog is
      not ready; then it has never asked for tags, and if the catalog is ready nevertheless somebody
      else has read it;
    * however often somebody waits for the loops and gives up, the result is told to the first who sees
      them ended, and to nobody a second time. -/
theorem scheduler_life_cycle {cache : MetadataCache} {now : Instant} {earlier : List Event}
    (reached : Run (.idle cache now) earlier σ) (fresh : σ.schedulers j = some .start)
    (trace : Trace σ stages σ') (present : σ'.schedulers j = some s) :
    ((∀ r ∈ (Chronicle.of j stages).refreshes.dropLast, Refresh.Succeeded r) ∧
      ∀ r ∈ (Chronicle.of j stages).passes.dropLast, r.ended ≠ none) ∧
    (stages.countP (·.startsTags j) ≤ 1 ∧
      (σ.cache.policy.tagsInterval = 0 → stages.countP (·.startsTags j) = 0) ∧
      (∀ first stage last, stages = first ++ stage :: last → stage.startsTags j = true →
        ∃ r ∈ (Chronicle.of j (first ++ [stage])).refreshes, r.Succeeded) ∧
      ∀ stage ∈ stages, stage.event.party? = some (.loop .tags j) → stage.event.begun ≠ [] →
        stage.before.cache.catalog.ready = true) ∧
    (∀ failure, s.catalogLoop = .ended (.error failure) ↔
      ∃ first stage last, stages = first ++ stage :: last ∧
        (Chronicle.of j first).refreshes.length = 1 ∧ stage.Fails j failure) ∧
    (∀ failure, s.catalogLoop = .ended (.error failure) →
      (∀ stage ∈ stages, stage.event.party? = some (.loop .tags j) → stage.event.begun = []) ∧
      (σ'.cache.catalog.ready = true →
        ∃ stage ∈ stages, stage.event.party? ≠ some (.loop .catalog j) ∧
          ∃ action, stage.event.action? = some action ∧ action.CompletesWalk)) ∧
    (∀ {ρ : Type} (reg : Registry ρ) (bound : Nat) (w : World ρ) (commands : List World.Command)
        (command : World.Command), w.interleaving none = σ → w.held = true → w.awaited = false →
      w.schedulers.length = j + 1 → .start ∉ commands → command ≠ .start →
      let v := commands.foldl (World.execute reg bound) w
      (∀ result, v.ended? = some result → (v.execute reg bound command).ended? = some result) ∧
      ∀ answer, v.answer? reg bound command = some answer →
        answer = .due (commands.any World.Command.releases)
          ((World.answers reg bound w commands).any World.Waited.isFinished)
          (v.execute reg bound command).ended?) := by
  obtain ⟨_, there, lives⟩ := trace.lives fresh
  rw [present] at there
  cases there
  have starts := trace.countP_startsTags fresh present
  refine ⟨⟨lives.refreshes.dropLast, lives.passes.dropLast⟩, ⟨?_, ?_, ?_, ?_⟩,
    fun failure => trace.fails_iff fresh present, ?_, ?_⟩
  · rw [starts]
    split <;> omega
  · intro unwanted
    have none : σ'.cache.policy.tagsPause? = none := by
      rw [trace.policy, RefreshPolicy.tagsPause?, unwanted]
      rfl
    have absent : s.tagLoop = .absent := by
      by_contra present
      exact (lives.started present).1 none
    rw [starts, if_pos absent]
  · rintro first stage last rfl starts
    obtain ⟨before, move, _⟩ := trace.around
    obtain ⟨t, there, lives⟩ := (before.step move).lives fresh
    refine (lives.started ?_).2
    unfold Stage.startsTags at starts
    rw [there] at starts
    split at starts
    · rename_i same
      cases same
      exact (of_decide_eq_true starts).2
    · cases starts
  · intro stage member acts asks
    exact (trace.asks fresh member acts asks).1
  · intro failure ended
    refine ⟨?_, ?_⟩
    · intro stage member acts
      by_contra asks
      obtain ⟨_, there, present'⟩ := (trace.asks fresh member acts asks).2
      rw [present] at there
      cases there
      exact present' (lives.failed failure ended).1
    · intro ready
      obtain ⟨first, stage, last, rfl, _, fails⟩ := (trace.fails_iff fresh present).mp ended
      obtain ⟨_, move, after⟩ := trace.around
      -- the catalog has got ready after the failure, when the catalog loop was over
      obtain ⟨between, commit, rest, rfl, completes⟩ := after.completes (move.unready fails) ready
      obtain ⟨until', move', _⟩ := after.around
      obtain ⟨action, acts, finished⟩ := completes
      exact ⟨commit, by simp,
        move'.completes_other (until'.run.ended (move.fails fails)) acts finished, action, acts, finished⟩
  · intro ρ reg bound w commands command same held untold last running going
    have start : w.Handing j false false :=
      ⟨same ▸ reached.ordered, last, held, untold, fun told => by cases told⟩
    have handing : (commands.foldl (World.execute reg bound) w).Handing j
        (commands.any World.Command.releases)
        ((World.answers reg bound w commands).any World.Waited.isFinished) := start.run running
    exact ⟨fun result ended => handing.result going ended, fun answer asks => handing.tells asks⟩

/-- A registry that takes its time to refuse everything. -/
def refusing : Registry Unit where
  latency _ _ := 10
  answer registry call := match call with
    | .catalogPage _ => (.error ⟨.registry, "refused"⟩, registry, [])
    | .tagList _ => (.error ⟨.registry, "refused"⟩, registry, [])
    | .lookup .. => (.error ⟨.registry, "refused"⟩, registry, [])
    | .removal .. => (.error ⟨.registry, "refused"⟩, registry, [])

/-- The first refresh fails.  Somebody who waits for the loops gives up before that, somebody after
    that learns of it, and nobody else does. -/
theorem scheduler_life_cycle_refused :
    let w := (World.fresh .standard ()).start
    let failure : RegistryError := ⟨.catalogUnavailable, "Registry error: refused"⟩
    (∃ stages σ s, Trace (w.interleaving none) stages σ ∧ σ.schedulers 0 = some s ∧
      s.catalogLoop = .ended (.error failure) ∧
      ∀ stage ∈ stages, stage.event.party? = some (.loop .tags 0) → stage.event.begun = []) ∧
    World.answers refusing 10 w [.wait 5] = [.running] ∧
    (([.wait 5].foldl (World.execute refusing 10) w).wait refusing 10 20).2 =
      .finished (.error failure) ∧
    (([.wait 5, .wait 20].foldl (World.execute refusing 10) w).wait refusing 10 20).2 =
      .finished (.ok ()) := by
  intro w failure
  obtain ⟨events, reached, _⟩ := World.exists_run refusing 10 .standard () [.start]
  have fresh : (w.interleaving none).schedulers 0 = some .start := rfl
  have asks := Trace.refl.step (.loop fresh (.runCatalog fun _ => 10))
  have page : Scheduler.Turn ⟨false, .walking ⟨0, none, []⟩ 10, .absent⟩ (.fresh .standard) 0 _ _ _ :=
    .page rfl rfl (fun _ => 10) (.error ⟨.registry, "refused"⟩)
  have refused := asks.step (.loop (j := 0) rfl page)
  obtain ⟨_, _, _, fails, waits⟩ := scheduler_life_cycle reached fresh refused rfl
  refine ⟨⟨_, _, _, refused, rfl, rfl, (fails failure rfl).1⟩, rfl, ?_, ?_⟩
  · exact (waits refusing 10 w [.wait 5] (.wait 20) rfl rfl rfl rfl (by simp) (by simp)).2 _ rfl
  · exact (waits refusing 10 w [.wait 5, .wait 20] (.wait 20) rfl rfl rfl rfl (by simp) (by simp)).2
      _ rfl

end Interleaving

end RegistryCache
