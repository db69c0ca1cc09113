import RegistryCache.Program.Run
import RegistryCache.Proofs.Programs.Foreground

/-! # Parts of runs

What the parts of a run do to the cache and to the session with the registry.  Reading the catalog is the
only part that fails (`Run.readCatalog_error`); all others end well, whatever the registry answers.
-/

namespace RegistryCache

namespace Run

/-! ## Composition -/

theorem run_bind (m : Run α) (f : α → Run β) (s : RunState) :
    (m >>= f).run s = match m.run s with
      | (.ok a, s') => (f a).run s'
      | (.error e, s') => (.error e, s') := by
  change ExceptT.bindCont f (m.run s).1 (m.run s).2 = _
  rcases m.run s with ⟨_ | _, _⟩ <;> rfl

/-- From a state, a part of a run ends well, with a result and a state as described. -/
def Attains (m : Run α) (s : RunState) (Q : α → RunState → Prop) : Prop :=
  ∃ a s', m.run s = (.ok a, s') ∧ Q a s'

namespace Attains

variable {m : Run α} {f : α → Run β} {s : RunState}

theorem bind {Q : α → RunState → Prop} {R : β → RunState → Prop} (first : Attains m s Q)
    (second : ∀ a s', Q a s' → Attains (f a) s' R) : Attains (m >>= f) s R := by
  obtain ⟨a, s₁, ran, holds⟩ := first
  obtain ⟨b, s₂, goesOn, holds'⟩ := second a s₁ holds
  exact ⟨b, s₂, by rw [run_bind, ran]; exact goesOn, holds'⟩

theorem imp {Q R : α → RunState → Prop} (attains : Attains m s Q) (weaker : ∀ a s', Q a s' → R a s') :
    Attains m s R := by
  obtain ⟨a, s', ran, holds⟩ := attains
  exact ⟨a, s', ran, weaker a s' holds⟩

theorem pure {Q : α → RunState → Prop} {a : α} (holds : Q a s) : Attains (Pure.pure a) s Q :=
  ⟨a, s, rfl, holds⟩

end Attains

/-- The state itself. -/
theorem attains_get (s : RunState) : Attains get s fun a s' => s = a ∧ s = s' := ⟨s, s, rfl, rfl, rfl⟩

/-- Printing and reporting leave the world as it is. -/
theorem attains_print (lines : List String) (s : RunState) :
    Attains (print lines) s fun _ s' => s'.world = s.world := ⟨(), _, rfl, rfl⟩

theorem attains_report (level : Level) (text : String) (s : RunState) :
    Attains (report level text) s fun _ s' => s'.world = s.world := ⟨(), _, rfl, rfl⟩

/-! ## Operations -/

theorem add_length_le_foldl {α : Type} {f : Nat → α → Nat} (grows : ∀ sum x, sum + 1 ≤ f sum x)
    (xs : List α) (start : Nat) : start + xs.length ≤ xs.foldl f start := by
  induction xs generalizing start with
  | nil => exact Nat.le_refl _
  | cons x rest inductionHypothesis =>
    have one := grows start x
    have further := inductionHypothesis (f start x)
    rw [List.foldl_cons, List.length_cons]
    omega

/-- More events are allowed for than there are replies. -/
theorem replies_lt_events (t : Transport) : t.replies.length + 1 < events t := by
  refine Nat.lt_of_lt_of_le ?_ (add_length_le_foldl ?_ t.replies 2)
  · omega
  · intro sum reply
    cases reply <;> dsimp only <;> omega

theorem events_pos (t : Transport) : 0 < events t :=
  Nat.lt_of_le_of_lt (Nat.zero_le _) (replies_lt_events t)

variable {client : RegistryClient} {s : RunState}

/-- An operation leaves the run with what it has come to. -/
theorem attains_perform {operation : Operation} {outcome : Outcome} {now : Instant}
    {cache : MetadataCache} {session : Session}
    (settles : World.Settles (s.world.perform client.registry (events s.world.registry.transport)
      operation none) outcome now cache session) :
    Attains (perform client operation) s fun o s' =>
      o = some outcome ∧ s'.world.cache = cache ∧ s'.world.registry.Like session :=
  ⟨_, _, rfl, settles.outcome, settles.cache, settles.session⟩

/-! ## The catalog -/

variable (client)

/-- Reading the catalog fails with the failure of the page that was not to be had. -/
theorem readCatalog_error (unready : s.world.cache.catalog.ready = false) {e : RegistryError}
    (failed : ((client.catalogPages (s.world.registry.left + 1) none).run s.world.registry).1 =
      .error e) :
    ∃ s', (readCatalog client).run s = (.error ⟨.catalogUnavailable, e.message⟩, s') ∧
      s'.world.registry.Like
        ((client.catalogPages (s.world.registry.left + 1) none).run s.world.registry).2 := by
  have settles := World.settles_refreshCatalog client (events s.world.registry.transport) s.world
    (Nat.lt_of_succ_lt (replies_lt_events _))
  rw [failed] at settles
  obtain ⟨o, s', ran, rfl, -, session⟩ := attains_perform settles
  refine ⟨s', ?_, session⟩
  rw [readCatalog, run_bind, ran]
  simp only [CatalogWalk.ending, unready]
  rfl

/-- Reading the catalog ends well if all its pages are to be had. -/
theorem attains_readCatalog {names : List String}
    (read : ((client.catalogPages (s.world.registry.left + 1) none).run s.world.registry).1 =
      .ok names) :
    Attains (readCatalog client) s fun _ s' =>
      s'.world.cache = (CatalogWalk.complete s.world.cache s.world.now s.world.now names).cache ∧
      s'.world.registry.Like
        ((client.catalogPages (s.world.registry.left + 1) none).run s.world.registry).2 := by
  have settles := World.settles_refreshCatalog client (events s.world.registry.transport) s.world
    (Nat.lt_of_succ_lt (replies_lt_events _))
  rw [read] at settles
  refine (attains_perform settles).bind ?_
  rintro o s' ⟨rfl, cache, session⟩
  exact .pure ⟨cache, session⟩

/-! ## Tags -/

/-- Reading the tags ends well, whatever is answered for single repositories. -/
theorem attains_readTags (s : RunState) :
    Attains (readTags client) s fun _ s' =>
      s'.world.registry.Like
        (client.after s.world.registry (s.world.cache.catalog.repositories.map .tagList)) ∧
      s'.world.cache.catalogJob = s.world.cache.catalogJob ∧
      s'.world.cache.tagsJob = some (.ofRun s.world.now s.world.now) := by
  obtain ⟨outcome, cache, settles, catalogJob, tagsJob⟩ := World.settles_refreshTags client s.world
  refine ⟨(), _, rfl, settles.session, ?_, ?_⟩
  · exact (congrArg MetadataCache.catalogJob settles.cache).trans catalogJob
  · exact (congrArg MetadataCache.tagsJob settles.cache).trans tagsJob

/-- Tags of which nothing is known are fetched, and loading them ends well whatever comes of it. -/
theorem attains_loadTags {repository : String}
    (unknown : s.world.cache.tags.contains repository = false) :
    Attains (loadTags client repository) s fun _ s' =>
      s'.world.registry.Like ((client.tagList repository).run s.world.registry).2 := by
  have settles := World.settles_fetchTags client (events_pos s.world.registry.transport) repository s.world
  generalize ((client.tagList repository).run s.world.registry).1.toOption = tags at settles
  refine (attains_get s).bind ?_
  rintro a s' ⟨rfl, rfl⟩
  rw [unknown]
  refine (attains_perform settles).bind ?_
  rintro o s' ⟨rfl, -, session⟩
  cases tags <;> exact .pure session

/-! ## Deletions -/

/-- A deletion fails the run unless it has come to success. -/
theorem run_delete {repository tag : String} {success : Bool} {now : Instant} {cache : MetadataCache}
    {session : Session}
    (settles : World.Settles (s.world.perform client.registry (events s.world.registry.transport)
      (.deleteTag repository tag) none) (.deleted success) now cache session) :
    ∃ s', (delete client repository tag).run s =
        (if success then .ok () else .error ⟨.registry, s!"Tag {repository}:{tag} was not deleted"⟩,
          s') ∧
      s'.world.registry.Like session := by
  obtain ⟨o, s', ran, rfl, -, like⟩ := attains_perform settles
  refine ⟨s', ?_, like⟩
  rw [delete, run_bind, ran]
  cases success <;> rfl

/-! ## Figures -/

theorem isSome_toJson?_ofRun (started now : Instant) :
    ∃ v, (JobInfo.ofRun started now).toJson? = some v := by
  have positive : 0 ≤ (Timestamp.ofInstant now).nanos := by
    simp only [Timestamp.ofInstant]
    omega
  simp [JobInfo.toJson?, JobInfo.ofRun, Timestamp.toJson?, Timestamp.sinceEpoch?, positive]

/-- Statistics of jobs that have run can be shown in either form. -/
theorem attains_showStatistics (json : Bool) (top : Nat) {started now started' now' : Instant}
    (catalogJob : s.world.cache.catalogJob = some (.ofRun started now))
    (tagsJob : s.world.cache.tagsJob = some (.ofRun started' now')) :
    Attains (showStatistics json top) s fun _ s' => s'.world = s.world := by
  refine (attains_get s).bind ?_
  rintro a s' ⟨rfl, rfl⟩
  cases json with
  | false => exact attains_print _ s
  | true =>
    obtain ⟨v, written⟩ := isSome_toJson?_ofRun started now
    obtain ⟨v', written'⟩ := isSome_toJson?_ofRun started' now'
    have shown : ∃ v, (s.world.cache.statistics top).toJson? = some v := by
      simp [Statistics.toJson?, MetadataCache.statistics, catalogJob, tagsJob,
        JobInfo.optionToJson?, written, written']
    obtain ⟨v, shown⟩ := shown
    rw [if_pos rfl, shown]
    exact attains_print _ s

end Run

end RegistryCache
