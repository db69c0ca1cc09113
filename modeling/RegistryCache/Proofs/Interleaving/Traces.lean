import RegistryCache.Proofs.Interleaving.Waiting

/-! # Traces

A run tells what has happened, a trace tells also in which state.  What is said about the past of a
scheduler is read off the stages of a trace.
-/

namespace RegistryCache

theorem Activity.receive_policy (cache : MetadataCache) (now : Instant) (stopped : Bool)
    (activity : Activity) (reply : activity.call.Reply) :
    (activity.receive cache now stopped reply).cache.policy = cache.policy := by
  cases activity with
  | catalogWalk walk =>
    obtain ⟨_, _, _, equal⟩ | ⟨_, _, _, _, _, _, equal⟩ | ⟨_, _, _, _, equal⟩ :=
      walk.receive_cases cache now reply <;>
    · simp only [Activity.receive, Step.cache_map, equal]
      rfl
  | tagPass pass =>
    have fetched : (TagFetch.receive pass.current cache reply).cache.policy = cache.policy := by
      rw [TagFetch.cache_receive]
    have same := congrArg MetadataCache.policy (PassTally.visit_withoutTagsJob
      (pass.tally.count (TagFetch.receive pass.current cache reply).next)
      (TagFetch.receive pass.current cache reply).cache now stopped pass.rest)
    exact same.trans fetched
  | tagFetch | tagListing | lookup | removal => cases reply <;> rfl

namespace Interleaving

/-- A move with the states around it. -/
structure Stage where
  before : Interleaving
  event : Event
  after : Interleaving

/-- Any number of moves with the states between them. -/
inductive Trace (σ : Interleaving) : List Stage → Interleaving → Prop where
  | refl : Trace σ [] σ
  | step {stages : List Stage} {e : Event} {σ₁ σ₂ : Interleaving} (trace : Trace σ stages σ₁)
      (move : Move σ₁ e σ₂) : Trace σ (stages ++ [⟨σ₁, e, σ₂⟩]) σ₂

variable {σ σ₁ σ₂ : Interleaving} {stages later : List Stage} {stage : Stage} {e : Event} {j : Nat}

namespace Trace

theorem last (trace : Trace σ (stages ++ [stage]) σ₂) :
    Trace σ stages stage.before ∧ Move stage.before stage.event stage.after ∧ σ₂ = stage.after := by
  generalize whole : stages ++ [stage] = all at trace
  cases trace with
  | refl => simp at whole
  | step trace move =>
    obtain ⟨rfl, rfl⟩ := List.append_singleton_inj.mp whole
    exact ⟨trace, move, rfl⟩

theorem split (trace : Trace σ (stages ++ later) σ₂) :
    ∃ σ₁, Trace σ stages σ₁ ∧ Trace σ₁ later σ₂ := by
  induction later using List.reverseRecOn generalizing σ₂ with
  | nil => exact ⟨σ₂, by simpa using trace, .refl⟩
  | append_singleton later stage inductionHypothesis =>
    rw [← List.append_assoc] at trace
    -- the last stage is cut off, and put back behind the cut
    obtain ⟨earlier, move, rfl⟩ := trace.last
    obtain ⟨σ₁, first, second⟩ := inductionHypothesis earlier
    exact ⟨σ₁, first, second.step move⟩

/-- A trace before one of its stages, at it, and after it. -/
theorem around (trace : Trace σ (stages ++ stage :: later) σ₂) :
    Trace σ stages stage.before ∧ Move stage.before stage.event stage.after ∧
      Trace stage.after later σ₂ := by
  have whole : stages ++ stage :: later = (stages ++ [stage]) ++ later := by simp
  rw [whole] at trace
  obtain ⟨σ₁, first, second⟩ := trace.split
  obtain ⟨before, move, rfl⟩ := first.last
  exact ⟨before, move, second⟩

theorem run (trace : Trace σ stages σ₁) : Run σ (stages.map Stage.event) σ₁ := by
  induction trace with
  | refl => exact .refl
  | step _ move inductionHypothesis =>
    rw [List.map_append]
    exact .step inductionHypothesis move

end Trace

/-! ## What no move touches -/

theorem Move.policy (move : Move σ e σ₁) : σ₁.cache.policy = σ.cache.policy := by
  obtain ⟨_, activity, reply, _, _, stopped, _, _, equal⟩ | ⟨_, same⟩ := move.cache_cases
  · rw [equal, Activity.receive_policy]
  · -- the job that is left out of the comparison has nothing to do with the policy
    have policies : σ₁.cache.withoutTagsJob.policy = σ.cache.withoutTagsJob.policy :=
      congrArg MetadataCache.policy same
    exact policies

/-- Loops that were started are there from then on. -/
theorem Move.present {s : Scheduler} (move : Move σ e σ₁) (present : σ.schedulers j = some s) :
    ∃ s', σ₁.schedulers j = some s' := by
  obtain ⟨still, _⟩ | ⟨asked, _⟩ | ⟨_, _, step, _, _, rfl⟩ := move.scheduler_cases present
  · exact ⟨s, still⟩
  · exact ⟨s.stop, asked⟩
  · exact ⟨step.next, by simp [advance, put]⟩

theorem Trace.policy (trace : Trace σ stages σ₁) : σ₁.cache.policy = σ.cache.policy := by
  induction trace with
  | refl => rfl
  | step _ move inductionHypothesis => exact move.policy.trans inductionHypothesis

theorem Trace.present {s : Scheduler} (trace : Trace σ stages σ₁)
    (present : σ.schedulers j = some s) : ∃ s', σ₁.schedulers j = some s' := by
  induction trace with
  | refl => exact ⟨s, present⟩
  | step _ move inductionHypothesis =>
    obtain ⟨_, still⟩ := inductionHypothesis
    exact move.present still

/-! ## The moves of one party -/

/-- The stages at which a party moves. -/
def movesOf (p : Party) (stages : List Stage) : List Stage :=
  stages.filter (·.event.party? = some p)

variable {p : Party}

theorem mem_movesOf_iff :
    stage ∈ movesOf p stages ↔ stage ∈ stages ∧ stage.event.party? = some p := by
  simp [movesOf]

theorem movesOf_of_acts (acts : stage.event.party? = some p) :
    movesOf p (stages ++ [stage]) = movesOf p stages ++ [stage] := by
  simp [movesOf, acts]

theorem movesOf_of_other (other : stage.event.party? ≠ some p) :
    movesOf p (stages ++ [stage]) = movesOf p stages := by
  simp [movesOf, other]

theorem Trace.move_of_mem (trace : Trace σ stages σ₁) (member : stage ∈ stages) :
    Move stage.before stage.event stage.after := by
  obtain ⟨first, last, rfl⟩ := List.append_of_mem member
  exact trace.around.2.1

/-- A move of nobody leaves the cache as it is. -/
theorem Move.cache_of_nobody (move : Move σ e σ₁) (nobody : e.party? = none) :
    σ₁.cache = σ.cache := by
  cases move with
  | elapse | start | stop => rfl
  | begin | hear | quit | loop => cases nobody

theorem Trace.cache_of_untouched (trace : Trace σ stages σ₁)
    (untouched : ∀ stage ∈ stages, stage.after.cache = stage.before.cache) :
    σ₁.cache = σ.cache := by
  induction trace with
  | refl => rfl
  | step _ move inductionHypothesis =>
    have last := untouched _ (List.mem_append_right _ (List.mem_singleton.mpr rfl))
    exact last.trans (inductionHypothesis fun stage member =>
      untouched stage (List.mem_append_left _ member))

/-- Where nobody else moves and a party writes nothing, nothing is written. -/
theorem Trace.cache_of_alone (trace : Trace σ stages σ₁)
    (alone : ∀ stage ∈ stages, ∀ q, stage.event.party? = some q → q = p)
    (untouched : ∀ stage ∈ movesOf p stages, stage.after.cache = stage.before.cache) :
    σ₁.cache = σ.cache := by
  refine trace.cache_of_untouched fun stage member => ?_
  cases acts : stage.event.party? with
  | none => exact (trace.move_of_mem member).cache_of_nobody acts
  | some q =>
    cases alone stage member q acts
    exact untouched stage (mem_movesOf_iff.mpr ⟨member, acts⟩)

/-- Where nobody else moves and only one move of a party writes, that move finds the cache as it was at
    the beginning, and leaves it as it is at the end. -/
theorem Trace.cache_of_single {before after : List Stage} (trace : Trace σ stages σ₁)
    (moves : movesOf p stages = before ++ stage :: after)
    (alone : ∀ s ∈ stages, ∀ q, s.event.party? = some q → q = p)
    (untouched : ∀ s ∈ before ++ after, s.after.cache = s.before.cache) :
    stage.before.cache = σ.cache ∧ σ₁.cache = stage.after.cache := by
  obtain ⟨first, rest, rfl, earlier, later⟩ := List.filter_eq_append_iff.mp moves
  obtain ⟨others, last, rfl, still, -, behind⟩ := List.filter_eq_cons_iff.mp later
  rw [← List.append_assoc] at trace alone
  obtain ⟨opening, -, closing⟩ := trace.around
  have quiet : movesOf p (first ++ others) = before := by
    rw [movesOf, List.filter_append, earlier, List.filter_eq_nil_iff.mpr still, List.append_nil]
  have behind : movesOf p last = after := behind
  obtain ⟨aloneBefore, aloneAfter⟩ := List.forall_mem_append.mp alone
  obtain ⟨untouchedBefore, untouchedAfter⟩ := List.forall_mem_append.mp untouched
  exact ⟨opening.cache_of_alone aloneBefore (quiet ▸ untouchedBefore),
    closing.cache_of_alone (List.forall_mem_cons.mp aloneAfter).2 (behind ▸ untouchedAfter)⟩

/-- The moves of a caller that begins nothing else, and what it waits for after them.  They have in common
    whatever holds before its first move and is kept by each reply that it hears, and when it gives
    up. -/
theorem Trace.course {i : Nat} {C : List Stage → Option Activity → Prop}
    (trace : Trace σ stages σ₁) (opened : C [] (σ.callers i))
    (only : ∀ stage ∈ stages, ∀ operation, stage.event.action? = some (.begins operation) →
      stage.event.party? ≠ some (.caller i))
    (hears : ∀ {own ρ activity}, C own (some activity) → ∀ stopped reply,
      let step := activity.receive ρ.cache ρ.now stopped reply
      C (own ++ [⟨ρ, .act (.caller i) (.hears activity reply) step.begun step.next.outcome?,
        ρ.serve i step⟩]) step.next.activity?)
    (quits : ∀ {own ρ activity}, C own (some activity) →
      let step := activity.cancel ρ.cache
      C (own ++ [⟨ρ, .act (.caller i) (.quits activity) step.begun step.next,
        ρ.dismiss i step⟩]) none) :
    C (movesOf (.caller i) stages) (σ₁.callers i) := by
  induction trace with
  | refl => exact opened
  | @step stages e σ₁ σ₂ trace move inductionHypothesis =>
    have course := inductionHypothesis fun stage member => only stage (List.mem_append_left _ member)
    by_cases acts : e.party? = some (.caller i)
    · rw [movesOf_of_acts acts]
      cases move with
      | elapse | start | stop | loop => cases acts
      | begin free operation =>
        exact absurd acts (only _ (List.mem_append_right _ (List.mem_singleton.mpr rfl)) operation rfl)
      | @hear _ activity waiting stopped reply =>
        cases acts
        rw [waiting] at course
        simpa [serve] using hears course stopped reply
      | @quit _ activity waiting =>
        cases acts
        rw [waiting] at course
        simpa [dismiss] using quits course
    · have same : σ₂.callers i = σ₁.callers i := move.activity_other (q := .caller i) acts
      rw [movesOf_of_other acts, same]
      exact course

end Interleaving

end RegistryCache
