import RegistryCache.Proofs.Scheduling.Rounds
import RegistryCache.Proofs.TagOrder

/-! # The course of a pass

A pass over the tags visits what the catalog held when the pass began, one repository after the other.
It may be stopped before each fetch and while one is under way, and the catalog may change at any time.
What it has visited when it comes to its end is a first part of what it set out to visit.  The main
statement is `Interleaving.pass_visits_first`.
-/

namespace RegistryCache

/-! ## Visits -/

/-- A repository whose fetch came to an end, and what it brought. -/
structure Visit where
  repository : String
  reply : Except RegistryError (List String)

namespace Visit

def succeeds (v : Visit) : Bool := v.reply.isOk

/-- The tags that the last successful visit of a repository brought. -/
def latest? (visits : List Visit) (repository : String) : Option (List String) :=
  (visits.filterMap fun v => if v.repository = repository then v.reply.toOption else none).getLast?

/-- A visit that succeeds makes what it brought the entry of its repository. -/
def store (s : TagStore) (v : Visit) : TagStore :=
  match v.reply with
  | .ok tags => s.insert v.repository tags
  | .error _ => s

theorem get?_store (s : TagStore) (v : Visit) (r : String) :
    (v.store s).get? r =
      (if v.repository = r then v.reply.toOption else none).or (s.get? r) := by
  cases reply : v.reply with
  | error e => simp [store, reply, Except.toOption]
  | ok tags =>
    by_cases own : v.repository = r <;> simp [store, reply, TagStore.get?_insert, own, Except.toOption]

theorem latest?_append (visits later : List Visit) (r : String) :
    latest? (visits ++ later) r = (latest? later r).or (latest? visits r) := by
  rw [latest?, List.filterMap_append, List.getLast?_append]
  rfl

end Visit

/-- The visit that an action of a pass completes. -/
def Action.visit? : Action → Option Visit
  | hears (.tagPass pass) reply => some ⟨pass.current, reply⟩
  | _ => none

def Event.visit? (e : Event) : Option Visit := e.action?.bind Action.visit?

/-! ## Steps of a pass -/

namespace PassTally

/-- The tally of a pass after some visits. -/
def ofVisits (began : Instant) (snapshot : List String) (visits : List Visit) : PassTally :=
  ⟨began, snapshot.length, visits.countP (·.succeeds), visits.countP (!·.succeeds)⟩

theorem refreshed_add_failed (began : Instant) (snapshot : List String) (visits : List Visit) :
    (ofVisits began snapshot visits).refreshed + (ofVisits began snapshot visits).failed =
      visits.length := by
  simp [ofVisits, List.length_eq_countP_add_countP (l := visits) (·.succeeds)]

theorem count_ofVisits (began : Instant) (snapshot : List String) (visits : List Visit)
    (repository : String) (cache : MetadataCache) (reply : Except RegistryError (List String)) :
    (ofVisits began snapshot visits).count (TagFetch.receive repository cache reply).next =
      ofVisits began snapshot (visits ++ [⟨repository, reply⟩]) := by
  cases reply <;> simp [ofVisits, count, TagFetch.receive, Visit.succeeds, Except.isOk, Except.toBool]

/-- A pass goes on to the next repository, or is over, and then it says whether something was left. -/
theorem visit_cases (t : PassTally) (cache : MetadataCache) (now : Instant) (stopped : Bool)
    (repositories : List String) :
    (∃ repository rest, repositories = repository :: rest ∧
      (t.visit cache now stopped repositories).next = .waiting ⟨t, repository, rest⟩ ∧
      (t.visit cache now stopped repositories).cache = cache) ∨
    ((t.visit cache now stopped repositories).next =
        .done ⟨t.refreshed, t.failed, decide (repositories ≠ [])⟩ ∧
      (t.visit cache now stopped repositories).cache.tagsJob =
        if repositories ≠ [] then cache.tagsJob else some (.ofRun t.started now)) := by
  cases repositories with
  | nil => exact .inr ⟨rfl, rfl⟩
  | cons repository rest =>
    cases stopped with
    | true => exact .inr ⟨by simp [visit, cancel], by simp [visit, cancel]⟩
    | false => exact .inl ⟨repository, rest, rfl, rfl, rfl⟩

end PassTally

theorem MetadataCache.eq_of_withoutTagsJob {cache cache' : MetadataCache}
    (same : cache'.withoutTagsJob = cache.withoutTagsJob) :
    cache' = { cache with tagsJob := cache'.tagsJob } := by
  cases cache
  cases cache'
  simp_all [withoutTagsJob]

theorem TagPass.cache_receive (pass : TagPass) (cache : MetadataCache) (now : Instant)
    (stopped : Bool) (reply : Except RegistryError (List String)) :
    (pass.receive cache now stopped reply).cache = { cache with
      tags := Visit.store cache.tags ⟨pass.current, reply⟩
      tagsJob := (pass.receive cache now stopped reply).cache.tagsJob } := by
  have written := MetadataCache.eq_of_withoutTagsJob (PassTally.visit_withoutTagsJob
    (pass.tally.count (TagFetch.receive pass.current cache reply).next)
    (TagFetch.receive pass.current cache reply).cache now stopped pass.rest)
  rw [receive, Step.cache_andThen, written, TagFetch.cache_receive]
  rfl

theorem Scheduler.passing_of_activity {s : Scheduler} {pass : TagPass}
    (waiting : s.activity? .tags = some (.tagPass pass)) : ∃ due, s.tagLoop = .passing pass due := by
  simp only [activity?] at waiting
  split at waiting
  · rename_i pass' due passing
    cases waiting
    exact ⟨due, passing⟩
  · cases waiting

namespace Interleaving

/-- The pass that a party is in, if it is in one. -/
def pass? (σ : Interleaving) (p : Party) : Option TagPass :=
  match σ.activity? p with
  | some (.tagPass pass) => some pass
  | _ => none

/-- A party sets out on a pass: a caller because it wants to, a tag loop because it is due. -/
inductive BeginsPass (σ : Interleaving) : Party → Event → Prop where
  | call (i : Nat) (stopped : Bool) (begun : List Call) (outcome : Option Outcome) :
      BeginsPass σ (.caller i) (.act (.caller i) (.begins (.refreshTags stopped)) begun outcome)
  | round {j : Nat} {s : Scheduler} (present : σ.schedulers j = some s)
      (due : s.beginsPass σ.now = true) (begun : List Call) (outcome : Option Outcome) :
      BeginsPass σ (.loop .tags j) (.act (.loop .tags j) .runs begun outcome)

variable {σ σ' : Interleaving} {e : Event} {p : Party} {pass : TagPass}

theorem pass?_eq_some_iff : σ.pass? p = some pass ↔ σ.activity? p = some (.tagPass pass) := by
  unfold pass?
  split
  · simp [*]
  · rename_i other
    simp only [reduceCtorEq, false_iff]
    exact other pass

/-- A move of a party takes a step of its pass.  What comes of the pass is told to callers. -/
structure Takes (p : Party) (e : Event) (σ' : Interleaving)
    (step : Step (Progress TagPass PassOutcome)) : Prop where
  cache : σ'.cache = step.cache
  pass : σ'.pass? p = step.next.activity?
  outcome : ∀ i, p = .caller i → e.outcome? = step.next.outcome?.map Outcome.pass

theorem Takes.of_loop {role : Role} {j : Nat} {step : Step (Progress TagPass PassOutcome)}
    (cache : σ'.cache = step.cache) (pass : σ'.pass? (.loop role j) = step.next.activity?) :
    Takes (.loop role j) e σ' step :=
  ⟨cache, pass, fun i caller => by cases caller⟩

theorem pass?_serve {i : Nat} {step : Step (Progress TagPass PassOutcome)} :
    (σ.serve i (step.map (.map .tagPass .pass))).pass? (.caller i) = step.next.activity? := by
  cases equal : step.next <;> simp [pass?, activity?, serve, equal, Progress.map, Progress.activity?]

theorem outcome?_map (going : Progress TagPass PassOutcome) :
    (going.map Activity.tagPass Outcome.pass).outcome? = going.outcome?.map Outcome.pass := by
  cases going <;> rfl

theorem pass?_advance {j : Nat} {step : Step Scheduler} {going : Progress TagPass PassOutcome}
    (waits : step.next.activity? .tags = going.activity?.map .tagPass) :
    (σ.advance j step).pass? (.loop .tags j) = going.activity? := by
  have lands : (σ.advance j step).activity? (.loop .tags j) = going.activity?.map .tagPass :=
    (σ.activity_put_self .tags j step.next).trans waits
  cases equal : going.activity? <;> simp [pass?, lands, equal]

theorem Move.begins_pass (move : Move σ e σ') (begins : σ.BeginsPass p e) :
    ∃ stopped, Takes p e σ' (TagPass.begin σ.cache σ.now stopped) := by
  cases begins with
  | call i stopped =>
    cases move with
    | begin free => exact ⟨stopped, rfl, pass?_serve, fun _ _ => outcome?_map _⟩
  | @round j s present due =>
    cases move with
    | loop there turn =>
      cases there.symm.trans present
      cases turn with
      | runTags latency =>
        rw [s.settleTags_of_begins latency σ.cache σ.now due]
        refine ⟨s.stopped, .of_loop ?_ (pass?_advance (s.takePass_activity latency _ _ _))⟩
        simp [advance, Scheduler.beginPass]

/-- What a party in a pass may do: nothing, hear of the repository it waits for, or be stopped. -/
theorem Move.pass_cases (move : Move σ e σ') (acts : e.party? = some p)
    (waiting : σ.pass? p = some pass) :
    (e.visit? = none ∧ σ'.pass? p = some pass ∧ σ'.cache = σ.cache) ∨
    (∃ reply stopped, e.visit? = some ⟨pass.current, reply⟩ ∧
      Takes p e σ' (pass.receive σ.cache σ.now stopped reply)) ∨
    (e.visit? = none ∧ Takes p e σ' ((pass.cancel σ.cache).map .done)) := by
  rw [pass?_eq_some_iff] at waiting
  cases move with
  | elapse | start | stop => cases acts
  | begin free =>
    cases acts
    cases free.symm.trans waiting
  | @hear i activity there stopped reply =>
    cases acts
    cases there.symm.trans waiting
    exact .inr (.inl ⟨reply, stopped, rfl, rfl, pass?_serve, fun _ _ => outcome?_map _⟩)
  | @quit i activity there =>
    cases acts
    cases there.symm.trans waiting
    exact .inr (.inr ⟨rfl, rfl, by simp [pass?, activity?, dismiss, Progress.activity?], fun _ _ => rfl⟩)
  | @loop j s role action step present turn =>
    cases acts
    simp only [activity?, present, Option.bind_some] at waiting
    cases turn with
    | runCatalog | join | page =>
      -- the catalog loop is never in a pass
      simp only [Scheduler.activity?] at waiting
      split at waiting <;> cases waiting
    | runTags latency =>
      obtain ⟨due, passing⟩ := Scheduler.passing_of_activity waiting
      obtain ⟨equal, -⟩ | ⟨-, -, untouched, -, ended⟩ | ⟨begins, -⟩ :=
        s.settleTags_cases latency σ.cache σ.now
      · rw [equal]
        exact .inl ⟨rfl, pass?_eq_some_iff.mpr ((σ.activity_put_self .tags j s).trans waiting), rfl⟩
      · refine .inr (.inr ⟨rfl, .of_loop untouched (pass?_advance ?_)⟩)
        rw [ended]
        rfl
      · rw [passing] at begins
        obtain spawned | ⟨-, wake, sleeping⟩ := begins
        · cases spawned
        · cases sleeping
    | @tags pass' due there going latency reply =>
      rw [Scheduler.activity?, there] at waiting
      cases waiting
      exact .inr (.inl ⟨reply, s.stopped, rfl,
        .of_loop (s.cache_receiveTags latency σ.cache σ.now pass reply)
          (pass?_advance (s.takePass_activity latency _ _ _))⟩)

/-! ## What the moves of a pass write -/

/-- The visit of a move, if it succeeds, is stored, and nothing else is written but the record of the
    tags job. -/
def WritesVisit (σ : Interleaving) (e : Event) (σ' : Interleaving) : Prop :=
  σ'.cache = { σ.cache with
    tags := e.visit?.elim σ.cache.tags (Visit.store σ.cache.tags)
    tagsJob := σ'.cache.tagsJob }

theorem Move.writes_visit (move : Move σ e σ') (acts : e.party? = some p)
    (waiting : σ.pass? p = some pass) : WritesVisit σ e σ' := by
  unfold WritesVisit
  obtain ⟨silent, -, same⟩ | ⟨reply, stopped, visits, takes⟩ | ⟨silent, takes⟩ :=
    move.pass_cases acts waiting
  · rw [silent, same]
    rfl
  · rw [visits, takes.cache]
    exact pass.cache_receive σ.cache σ.now stopped reply
  · rw [silent, takes.cache]
    rfl

theorem BeginsPass.silent (begins : σ.BeginsPass p e) : e.visit? = none := by
  cases begins <;> rfl

theorem Move.writes_visit_of_begins (move : Move σ e σ') (begins : σ.BeginsPass p e) :
    WritesVisit σ e σ' := by
  obtain ⟨stopped, takes⟩ := move.begins_pass begins
  unfold WritesVisit
  rw [begins.silent, takes.cache]
  exact MetadataCache.eq_of_withoutTagsJob (PassTally.visit_withoutTagsJob ..)

theorem WritesVisit.get?_tags (writes : WritesVisit σ e σ') (r : String) :
    σ'.cache.tags.get? r = (Visit.latest? e.visit?.toList r).or (σ.cache.tags.get? r) := by
  rw [congrArg MetadataCache.tags writes]
  cases e.visit? with
  | none => rfl
  | some v => simp [v.get?_store, Visit.latest?]

/-! ## The course of a pass -/

/-- The visits that a party completes at some stages. -/
def visitsOf (p : Party) (stages : List Stage) : List Visit :=
  (movesOf p stages).filterMap (·.event.visit?)

variable {stages : List Stage}

theorem visitsOf_of_acts (stage : Stage) (acts : stage.event.party? = some p) :
    visitsOf p (stages ++ [stage]) = visitsOf p stages ++ stage.event.visit?.toList := by
  rw [visitsOf, movesOf_of_acts acts, List.filterMap_append]
  cases visited : stage.event.visit? <;> simp [visitsOf, visited]

theorem visitsOf_of_other (stage : Stage) (other : stage.event.party? ≠ some p) :
    visitsOf p (stages ++ [stage]) = visitsOf p stages := by
  rw [visitsOf, movesOf_of_other other, visitsOf]

/-- A pass has made some visits and waits for what comes next. -/
def Goes (p : Party) (began : Instant) (snapshot : List String) (visits : List Visit)
    (σ : Interleaving) : Prop :=
  ∃ current rest, snapshot = visits.map Visit.repository ++ current :: rest ∧
    σ.pass? p = some ⟨.ofVisits began snapshot visits, current, rest⟩

/-- A pass comes to its end after some visits.  It counts as cancelled if something was left to visit,
    and is put on record otherwise. -/
structure Ends (p : Party) (began : Instant) (snapshot : List String) (visits : List Visit)
    (stage : Stage) : Prop where
  finished : stage.after.pass? p = none
  left : ∃ rest, snapshot = visits.map Visit.repository ++ rest
  outcome : ∀ i, p = .caller i → stage.event.outcome? = some (.pass
    ⟨visits.countP (·.succeeds), visits.countP (!·.succeeds), decide (visits.length < snapshot.length)⟩)
  job : stage.after.cache.tagsJob =
    if visits.length < snapshot.length then stage.before.cache.tagsJob
    else some (.ofRun began stage.before.now)

variable {began : Instant} {snapshot : List String} {visits : List Visit}

/-- After a step of a pass there is more to come, or it has come to its end. -/
theorem Takes.goes_or_ends {step : Step (Progress TagPass PassOutcome)} {cache : MetadataCache}
    {stopped : Bool} {left : List String} (takes : Takes p e σ' step)
    (next : step.next = ((PassTally.ofVisits began snapshot visits).visit cache σ.now
      stopped left).next)
    (written : step.cache = ((PassTally.ofVisits began snapshot visits).visit cache σ.now
      stopped left).cache)
    (job : cache.tagsJob = σ.cache.tagsJob)
    (split : snapshot = visits.map Visit.repository ++ left) :
    (Goes p began snapshot visits σ' ∧ σ'.cache.tagsJob = σ.cache.tagsJob) ∨
      Ends p began snapshot visits ⟨σ, e, σ'⟩ := by
  have shorter : visits.length < snapshot.length ↔ left ≠ [] := by
    have lengths := congrArg List.length split
    simp only [List.length_append, List.length_map] at lengths
    rw [← List.length_pos_iff]
    omega
  obtain ⟨current, rest, rfl, waits, same⟩ | ⟨finished, record⟩ :=
    (PassTally.ofVisits began snapshot visits).visit_cases cache σ.now stopped left
  · refine .inl ⟨⟨current, rest, split, ?_⟩, ?_⟩
    · rw [takes.pass, next, waits]
      rfl
    · rw [takes.cache, written, same, job]
  · refine .inr ⟨?_, ⟨left, split⟩, ?_, ?_⟩
    · rw [takes.pass, next, finished]
      rfl
    · intro i caller
      rw [takes.outcome i caller, next, finished]
      simp [Progress.outcome?, PassTally.ofVisits, shorter]
    · rw [takes.cache, written, record, job]
      simp [shorter, PassTally.ofVisits]

theorem Move.begins_or_ends (move : Move σ e σ') (begins : σ.BeginsPass p e) :
    (Goes p σ.now σ.cache.catalog.repositories [] σ' ∧ σ'.cache.tagsJob = σ.cache.tagsJob) ∨
      Ends p σ.now σ.cache.catalog.repositories [] ⟨σ, e, σ'⟩ := by
  obtain ⟨stopped, takes⟩ := move.begins_pass begins
  exact takes.goes_or_ends rfl rfl rfl rfl

/-- What a move of a party in a pass makes of the pass. -/
theorem Move.goes_on_or_ends (move : Move σ e σ') (acts : e.party? = some p)
    (goes : Goes p began snapshot visits σ) :
    (Goes p began snapshot (visits ++ e.visit?.toList) σ' ∧ σ'.cache.tagsJob = σ.cache.tagsJob) ∨
      Ends p began snapshot (visits ++ e.visit?.toList) ⟨σ, e, σ'⟩ := by
  obtain ⟨current, rest, split, waiting⟩ := goes
  obtain ⟨silent, still, same⟩ | ⟨reply, stopped, visited, takes⟩ | ⟨silent, takes⟩ :=
    move.pass_cases acts waiting
  · rw [silent, same]
    exact .inl ⟨⟨current, rest, by simpa using split, by simpa using still⟩, rfl⟩
  · rw [visited]
    let fetched := TagFetch.receive current σ.cache reply
    have counted : (PassTally.ofVisits began snapshot visits).count fetched.next =
        .ofVisits began snapshot (visits ++ [⟨current, reply⟩]) := PassTally.count_ofVisits ..
    have received := congrArg (·.visit fetched.cache σ.now stopped rest) counted
    have next := congrArg Step.next received
    have written := congrArg Step.cache received
    refine takes.goes_or_ends next written ?_ ?_
    · simp [fetched, TagFetch.cache_receive]
    · simp [split]
  · -- it is stopped while it waits
    rw [silent]
    have shorter : visits.length < snapshot.length := by
      simp [split]
    refine .inr ⟨takes.pass, ⟨current :: rest, by simpa using split⟩, ?_, ?_⟩
    · intro i caller
      rw [takes.outcome i caller]
      simp [TagPass.cancel, PassTally.cancel, PassTally.ofVisits, Progress.outcome?, shorter]
    · simp [takes.cache, shorter]

/-! ## Whole passes -/

variable {σ₁ σ₂ : Interleaving} {stage : Stage} {later : List Stage}

/-- A party that was in a pass before all stages that follow its beginning is in the same pass after
    them, or the last of them has ended it. -/
theorem Trace.goes_or_ends (trace : Trace σ₁ later σ₂)
    (opened : Goes p began snapshot [] σ₁ ∨ Ends p began snapshot [] ⟨σ, e, σ₁⟩)
    (during : ∀ stage ∈ later, stage.before.pass? p ≠ none) :
    Goes p began snapshot (visitsOf p later) σ₂ ∨
      (σ₂.pass? p = none ∧ ∃ earlier last, ⟨σ, e, σ₁⟩ :: later = earlier ++ [last] ∧
        Ends p began snapshot (visitsOf p later) last) := by
  induction trace with
  | refl =>
    obtain goes | ends := opened
    · exact .inl goes
    · exact .inr ⟨ends.finished, [], _, rfl, ends⟩
  | @step later e' ρ ρ' trace move inductionHypothesis =>
    have waiting : ρ.pass? p ≠ none := during ⟨ρ, e', ρ'⟩ (by simp)
    obtain goes | ⟨finished, -⟩ := inductionHypothesis fun stage member =>
      during stage (List.mem_append_left _ member)
    · by_cases acts : e'.party? = some p
      · rw [visitsOf_of_acts ⟨ρ, e', ρ'⟩ acts]
        obtain ⟨goes, -⟩ | ends := move.goes_on_or_ends acts goes
        · exact .inl goes
        · exact .inr ⟨ends.finished, ⟨σ, e, σ₁⟩ :: later, _, rfl, ends⟩
      · rw [visitsOf_of_other ⟨ρ, e', ρ'⟩ acts]
        have same : ρ'.pass? p = ρ.pass? p := by
          rw [pass?, move.activity_other acts, pass?]
        obtain ⟨current, rest, split, waits⟩ := goes
        exact .inl ⟨current, rest, split, same.trans waits⟩
    · exact absurd finished waiting

/-- While somebody is in a pass, a repository that others leave alone has the entry that the last
    successful visit has brought, or the one it had. -/
theorem Trace.get?_tags_of_visits (trace : Trace σ later σ₂)
    (during : ∀ stage ∈ later, stage.before.pass? p ≠ none) {r : String}
    (apart : ∀ stage ∈ later, stage.event.party? ≠ some p → ∀ reply,
      stage.event.tagReply? = some reply → reply.repository ≠ r) :
    σ₂.cache.tags.get? r = (Visit.latest? (visitsOf p later) r).or (σ.cache.tags.get? r) := by
  induction trace with
  | refl => rfl
  | @step later e σ₁ σ₂ trace move inductionHypothesis =>
    have before := inductionHypothesis
      (fun stage member => during stage (List.mem_append_left _ member))
      (fun stage member => apart stage (List.mem_append_left _ member))
    have waiting : σ₁.pass? p ≠ none := during ⟨σ₁, e, σ₂⟩ (by simp)
    by_cases acts : e.party? = some p
    · obtain ⟨pass, waiting⟩ := Option.ne_none_iff_exists'.mp waiting
      rw [visitsOf_of_acts ⟨σ₁, e, σ₂⟩ acts, Visit.latest?_append, Option.or_assoc, ← before]
      exact (move.writes_visit acts waiting).get?_tags r
    · rw [visitsOf_of_other ⟨σ₁, e, σ₂⟩ acts, ← before, move.get?_tags]
      cases told : e.tagReply? with
      | none => rfl
      | some reply => exact TagReply.apply_of_ne (apart ⟨σ₁, e, σ₂⟩ (by simp) acts reply told)

/-- A move in the course of a pass stores its visit, and leaves the record of the job alone as long as
    the pass goes on. -/
theorem Trace.writes_visits (trace : Trace σ₁ later σ₂)
    (opened : Goes p began snapshot [] σ₁ ∨ Ends p began snapshot [] ⟨σ, e, σ₁⟩)
    (during : ∀ stage ∈ later, stage.before.pass? p ≠ none) (member : stage ∈ later)
    (acts : stage.event.party? = some p) :
    WritesVisit stage.before stage.event stage.after ∧
      (stage.after.pass? p ≠ none → stage.after.cache.tagsJob = stage.before.cache.tagsJob) := by
  have waiting := during stage member
  obtain ⟨earlier, rest, rfl⟩ := List.append_of_mem member
  obtain ⟨before, move, -⟩ := trace.around
  obtain goes | ⟨finished, -⟩ := before.goes_or_ends opened fun stage member =>
    during stage (List.mem_append_left _ member)
  · constructor
    · obtain ⟨pass, waiting⟩ := Option.ne_none_iff_exists'.mp waiting
      exact move.writes_visit acts waiting
    · intro goesOn
      obtain ⟨-, same⟩ | ends := move.goes_on_or_ends acts goes
      · exact same
      · exact absurd ends.finished goesOn
  · exact absurd finished waiting

/-- A pass over the tags, of a caller or of a tag loop, over whatever the catalog holds when it begins, and
    whatever others do in the meantime.

    * The repositories whose fetch has come to an end are the first ones of the catalog as it was then, in
      that order, as many as the pass has counted: as refreshed where tags have arrived, as failed where
      not.  While it goes on, the pass waits for the next one.
    * Once it is over, it was cancelled if it has counted fewer than there were.  A caller is told so, and
      the job is on record just if it was not cancelled.
    * A move of the pass stores the tags that it hears of, if there are any, and writes nothing else; so
      the entry of a repository that others leave alone is what the last success has brought, or else
      what it was before. -/
theorem pass_visits_first (move : Move σ e σ₁) (begins : σ.BeginsPass p e)
    (trace : Trace σ₁ later σ₂) (during : ∀ stage ∈ later, stage.before.pass? p ≠ none) :
    let snapshot := σ.cache.catalog.repositories
    let visits := visitsOf p later
    let tally := PassTally.ofVisits σ.now snapshot visits
    visits.map Visit.repository = snapshot.take (tally.refreshed + tally.failed) ∧
    (∀ pass, σ₂.pass? p = some pass → pass.tally = tally ∧
      snapshot.drop (tally.refreshed + tally.failed) = pass.current :: pass.rest) ∧
    (σ₂.pass? p = none → ∃ earlier last, ⟨σ, e, σ₁⟩ :: later = earlier ++ [last] ∧
      let cancelled := decide (tally.refreshed + tally.failed < snapshot.length)
      (∀ i, p = .caller i → last.event.outcome? =
        some (.pass ⟨tally.refreshed, tally.failed, cancelled⟩)) ∧
      last.after.cache.tagsJob =
        if cancelled then last.before.cache.tagsJob else some (.ofRun σ.now last.before.now)) ∧
    (∀ stage ∈ movesOf p (⟨σ, e, σ₁⟩ :: later),
      WritesVisit stage.before stage.event stage.after ∧
      (stage.after.pass? p ≠ none → stage.after.cache.tagsJob = stage.before.cache.tagsJob)) ∧
    (∀ r, (∀ stage ∈ later, stage.event.party? ≠ some p → ∀ reply,
        stage.event.tagReply? = some reply → reply.repository ≠ r) →
      σ₂.cache.tags.get? r = (Visit.latest? visits r).or (σ.cache.tags.get? r)) := by
  intro snapshot visits tally
  have opens := move.begins_or_ends begins
  have opened : Goes p σ.now snapshot [] σ₁ ∨ Ends p σ.now snapshot [] ⟨σ, e, σ₁⟩ :=
    opens.imp_left And.left
  have counted : tally.refreshed + tally.failed = visits.length :=
    PassTally.refreshed_add_failed σ.now snapshot visits
  have course := trace.goes_or_ends opened during
  have split : ∃ left, snapshot = visits.map Visit.repository ++ left := by
    obtain ⟨current, rest, split, -⟩ | ⟨_, _, _, _, ends⟩ := course
    · exact ⟨current :: rest, split⟩
    · exact ends.left
  rw [counted]
  refine ⟨?_, ?_, ?_, ?_, ?_⟩
  · obtain ⟨left, split⟩ := split
    rw [split, List.take_left' (List.length_map _)]
  · intro pass waits
    obtain ⟨current, rest, split, waiting⟩ | ⟨finished, -⟩ := course
    · cases waiting.symm.trans waits
      refine ⟨rfl, ?_⟩
      rw [split]
      exact List.drop_left' (List.length_map _)
    · rw [finished] at waits
      cases waits
  · intro finished
    obtain ⟨_, _, -, waiting⟩ | ⟨-, earlier, last, whole, ends⟩ := course
    · rw [finished] at waiting
      cases waiting
    · exact ⟨earlier, last, whole, ends.outcome, by simpa using ends.job⟩
  · intro stage own
    obtain ⟨member, acts⟩ := mem_movesOf_iff.mp own
    obtain rfl | member := List.mem_cons.mp member
    · refine ⟨move.writes_visit_of_begins begins, fun goesOn => ?_⟩
      obtain ⟨-, same⟩ | ends := opens
      · exact same
      · exact absurd ends.finished goesOn
    · exact trace.writes_visits opened during member acts
  · intro r apart
    have unwritten : σ₁.cache.tags.get? r = σ.cache.tags.get? r := by
      rw [(move.writes_visit_of_begins begins).get?_tags r, begins.silent]
      rfl
    rw [trace.get?_tags_of_visits during apart, unwritten]

/-- A catalog names `app` twice.  Its second repository fails, somebody else reads a new catalog, and the
    pass is stopped in the middle of the fourth fetch. -/
theorem pass_visits_first_interrupted :
    let cache : MetadataCache := { MetadataCache.fresh .standard with
      catalog := ⟨["app", "web", "app", "db"], true⟩
      tags := TagStore.empty.insert "db" ["v0"] }
    ∃ later σ₁ σ₂,
      Move (idle cache 0) (.act (.caller 0) (.begins (.refreshTags false)) [.tagList "app"] none) σ₁ ∧
      Trace σ₁ later σ₂ ∧ σ₂.cache.catalog.repositories = ["other"] ∧
      (visitsOf (.caller 0) later).map Visit.repository = ["app", "web", "app"] ∧
      (∃ earlier last, later = earlier ++ [last] ∧
        last.event.outcome? = some (.pass ⟨2, 1, true⟩)) ∧
      σ₂.cache.tags.get? "app" = some ["v2"] ∧ σ₂.cache.tags.get? "web" = none ∧
      σ₂.cache.tags.get? "db" = some ["v0"] ∧ σ₂.cache.tagsJob = none := by
  intro cache
  let σ := idle cache 0
  let σ₁ := σ.serve 0 (Operation.begin σ.cache σ.now (.refreshTags false))
  have begins : σ.Move (.act (.caller 0) (.begins (.refreshTags false)) [.tagList "app"] none) σ₁ :=
    .begin rfl _
  have first := (Trace.refl (σ := σ₁)).step (.hear (i := 0) rfl false (.ok (["v1"] : List String)))
  have failed := first.step (.hear (i := 0) rfl false (.error (⟨.timeout, "late"⟩ : RegistryError)))
  have walks := failed.step (.begin (i := 1) rfl .refreshCatalog)
  have committed := walks.step (.hear (i := 1) rfl false (.ok (⟨["other"], none⟩ : CatalogPage)))
  have again := committed.step (.hear (i := 0) rfl false (.ok (["v2"] : List String)))
  have stopped := again.step (.quit (i := 0) rfl)
  obtain ⟨visited, -, -, -, entries⟩ := pass_visits_first begins (.call 0 false _ _) stopped (by
    intro stage member
    simp only [List.nil_append, List.cons_append, List.mem_cons, List.not_mem_nil, or_false] at member
    rcases member with rfl | rfl | rfl | rfl | rfl | rfl <;> exact Option.some_ne_none _)
  -- what the other caller hears of tells nothing of tags
  have entry (r : String) := entries r (by
    simp [Event.party?, Event.tagReply?, Event.action?, Action.tagReply?, Action.fetched?,
      Action.deleted?])
  exact ⟨_, σ₁, _, begins, stopped, rfl, visited, ⟨_, _, rfl, rfl⟩, entry "app", entry "web",
    entry "db", rfl⟩

end Interleaving

end RegistryCache
