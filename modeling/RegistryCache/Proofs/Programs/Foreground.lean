import RegistryCache.Proofs.Pagination.Refreshes
import RegistryCache.Proofs.Pagination.Walks
import RegistryCache.Proofs.Programs.CatalogReading

/-! # Operations in the foreground

What the operations of a cache come to when they are performed one at a time against a client.  Calls
take no time there, so the clock stands, and an operation is the calls that it makes: a catalog refresh
reads the catalog (`World.settles_walk`), a pass fetches the tags of one repository after the other
(`World.settles_pass`).
-/

namespace RegistryCache

namespace World

/-- What an operation has come to: its outcome, and the cache and the session that it has left at the
    same instant. -/
structure Settles (r : World Session × Option Outcome) (outcome : Outcome) (now : Instant)
    (cache : MetadataCache) (session : Session) : Prop where
  outcome : r.2 = some outcome
  now : r.1.now = now
  cache : r.1.cache = cache
  session : r.1.registry.Like session

variable (c : RegistryClient)

/-! ## One call -/

/-- Calls take no time: an activity that waits hears the reply of the client at once, whatever was
    reported before, and goes on. -/
theorem follow_waiting (events : Nat) (activity : Activity) (w : World Session) :
    ∃ w' : World Session,
      w'.cache = (activity.receive w.cache w.now false
        ((c.call activity.call).run w.registry).1).cache ∧
      w'.now = w.now ∧
      w'.registry.Like ((c.call activity.call).run w.registry).2 ∧
      w.follow c.registry none (events + 1) (.waiting activity) =
        w'.follow c.registry none events (activity.receive w.cache w.now false
          ((c.call activity.call).run w.registry).1).next := by
  obtain ⟨reply, like⟩ := c.ignoresReports_call activity.call
    { w.registry with notices := [] } w.registry ⟨rfl, rfl⟩
  have instant : w.now + c.registry.latency w.registry activity.call - w.now = 0 :=
    Nat.add_sub_cancel_left ..
  refine ⟨(w.ask c.registry activity.call).2.record (activity.receive w.cache w.now false
    ((c.call activity.call).run w.registry).1), rfl, rfl, like, ?_⟩
  rw [follow, ← reply]
  dsimp only [Option.filter]
  rw [instant]
  rfl

theorem follow_done (bound : Nat) (outcome : Outcome) (w : World Session) :
    w.follow c.registry none bound (.done outcome) = (w, some outcome) := by
  cases bound <;> rfl

/-- An operation that ends with the reply to its first call makes no other. -/
theorem settles_of_single {bound : Nat} (room : 0 < bound) {operation : Operation}
    {activity : Activity} {begun : List Call} {outcome : Outcome} {w : World Session}
    {reply : activity.call.Reply} {session : Session}
    (begins : operation.begin w.cache w.now = ⟨w.cache, [], begun, .waiting activity⟩)
    (ran : (c.call activity.call).run w.registry = (reply, session))
    (ends : (activity.receive w.cache w.now false reply).next = .done outcome) :
    Settles (w.perform c.registry bound operation none) outcome w.now
      (activity.receive w.cache w.now false reply).cache session := by
  obtain ⟨bound, rfl⟩ := Nat.exists_eq_succ_of_ne_zero (Nat.ne_of_gt room)
  let opened := w.record (⟨w.cache, [], begun, .waiting activity⟩ : Step (Progress Activity Outcome))
  obtain ⟨w', cache, now, like, goesOn⟩ := follow_waiting c bound activity opened
  change (c.call activity.call).run opened.registry = (reply, session) at ran
  change (activity.receive opened.cache opened.now false reply).next = .done outcome at ends
  rw [ran] at cache like goesOn
  rw [ends, follow_done c] at goesOn
  rw [perform, begins, Nat.succ_eq_add_one, goesOn]
  exact ⟨rfl, now, cache, like⟩

/-! ## The catalog -/

theorem run_catalogPages_of_breaks {bound : Nat} {cursor : Option String} {s s' : Session}
    {reply : Except RegistryError CatalogPage} {reason : RegistryError}
    (ran : (c.catalogPage cursor).run s = (reply, s')) (breaks : Breaks cursor reply reason) :
    (c.catalogPages (bound + 1) cursor).run s = (.error reason, s') := by
  rw [c.run_catalogPages_succ, ran]
  cases breaks with
  | failure => rfl
  | standstill named same =>
    simp only [nextCursor, named, if_pos same]
    rfl

/-- A walk reads the catalog from its cursor on. -/
theorem settles_walk (bound : Nat) (walk : CatalogWalk) (w : World Session)
    (enough : w.registry.left < bound) :
    Settles (w.follow c.registry none bound (.waiting (.catalogWalk walk)))
      (.catalog (CatalogWalk.ending w.cache
        (((c.catalogPages bound walk.cursor).run w.registry).1.map (walk.gathered ++ ·))))
      w.now
      (match ((c.catalogPages bound walk.cursor).run w.registry).1 with
      | .error _ => w.cache
      | .ok names =>
        (CatalogWalk.complete w.cache w.now walk.started (walk.gathered ++ names)).cache)
      ((c.catalogPages bound walk.cursor).run w.registry).2 := by
  induction bound generalizing walk w with
  | zero => exact absurd enough (Nat.not_lt_zero _)
  | succ bound inductionHypothesis =>
    obtain ⟨w', cache, now, like, goesOn⟩ := follow_waiting c bound (.catalogWalk walk) w
    rcases ran : (c.catalogPage walk.cursor).run w.registry with ⟨reply, s⟩
    have same : (c.call (Activity.catalogWalk walk).call).run w.registry = (reply, s) := ran
    rw [same] at cache like goesOn
    dsimp only [Activity.receive] at cache like goesOn
    obtain ⟨reason, breaks⟩ | ⟨names, next, rfl, moves⟩ | ⟨names, rfl⟩ :=
      CatalogWalk.reply_cases walk.cursor reply
    · obtain ⟨notices, failed⟩ := walk.receive_of_breaks w.cache w.now breaks
      rw [failed] at cache goesOn
      rw [goesOn, run_catalogPages_of_breaks c ran breaks]
      dsimp only [Step.map, CatalogWalk.fail, Step.report, Progress.map]
      rw [follow_done c]
      exact ⟨rfl, now, cache, like⟩
    · obtain ⟨notices, further⟩ := walk.receive_of_further w.cache w.now names moves
      rw [further] at cache goesOn
      dsimp only [Step.map, CatalogWalk.request, Progress.map] at cache goesOn
      have spent : s.left < w.registry.left := c.spends_catalogPage _ _ _ _ ran trivial
      have left : w'.registry.left < bound := by
        rw [like.left_eq]
        omega
      have rest := inductionHypothesis ⟨walk.started, some next, walk.gathered ++ names⟩ w' left
      obtain ⟨result, after⟩ := c.ignoresReports_catalogPages bound (some next) _ _ like
      rw [result, cache, now] at rest
      rw [goesOn, c.run_catalogPages_succ, ran]
      simp only [nextCursor, if_neg moves]
      rcases read : (c.catalogPages bound (some next)).run s with ⟨e | more, s'⟩
      · rw [read] at rest after
        exact { rest with session := rest.session.trans after }
      · rw [read] at rest after
        simp only [Except.map, List.append_assoc] at rest ⊢
        exact { rest with session := rest.session.trans after }
    · obtain ⟨notices, last⟩ := walk.receive_of_last w.cache w.now names
      rw [last] at cache goesOn
      rw [goesOn, c.run_catalogPages_succ, ran]
      dsimp only [Step.map, CatalogWalk.complete, Progress.map, nextCursor]
      rw [follow_done c]
      exact ⟨rfl, now, cache, like⟩

/-- A refresh of the catalog reads it from the beginning. -/
theorem settles_refreshCatalog (bound : Nat) (w : World Session) (enough : w.registry.left < bound) :
    Settles (w.perform c.registry bound .refreshCatalog none)
      (.catalog (CatalogWalk.ending w.cache
        ((c.catalogPages (w.registry.left + 1) none).run w.registry).1))
      w.now
      (match ((c.catalogPages (w.registry.left + 1) none).run w.registry).1 with
      | .error _ => w.cache
      | .ok names => (CatalogWalk.complete w.cache w.now w.now names).cache)
      ((c.catalogPages (w.registry.left + 1) none).run w.registry).2 := by
  have walked := settles_walk c bound ⟨w.now, none, []⟩
    (w.record (Operation.begin w.cache w.now .refreshCatalog)) enough
  have nothing_before : ∀ r : Except RegistryError (List String), r.map ([] ++ ·) = r := by
    intro r
    cases r <;> rfl
  have outcome := walked.outcome
  rw [nothing_before] at outcome
  rw [← c.run_catalogPages_eq none w.registry enough (Nat.lt_succ_self _)]
  exact ⟨outcome, walked.now, walked.cache, walked.session⟩

/-! ## The tags of all repositories -/

theorem started_count (t : PassTally) (fetched : Option (List String)) :
    (t.count fetched).started = t.started := by
  cases fetched <;> rfl

theorem catalogJob_receive (repository : String) (cache : MetadataCache)
    (reply : Except RegistryError (List String)) :
    (TagFetch.receive repository cache reply).cache.catalogJob = cache.catalogJob := by
  rw [TagFetch.cache_receive]

/-- A pass fetches the tags of one repository after the other, whatever becomes of each, and has its
    run on record at the end. -/
theorem settles_pass (bound : Nat) (pass : TagPass) (w : World Session)
    (enough : pass.rest.length < bound) :
    ∃ outcome cache,
      Settles (w.follow c.registry none bound (.waiting (.tagPass pass))) (.pass outcome) w.now cache
        (c.after w.registry ((pass.current :: pass.rest).map .tagList)) ∧
      cache.catalogJob = w.cache.catalogJob ∧
      cache.tagsJob = some (.ofRun pass.tally.started w.now) := by
  induction bound generalizing pass w with
  | zero => exact absurd enough (Nat.not_lt_zero _)
  | succ bound inductionHypothesis =>
    obtain ⟨tally, current, rest⟩ := pass
    obtain ⟨w', cache, now, like, goesOn⟩ :=
      follow_waiting c bound (.tagPass ⟨tally, current, rest⟩) w
    dsimp only [Activity.receive, TagPass.receive] at cache goesOn
    rw [goesOn, List.map_cons, c.after_cons]
    change w'.registry.Like ((c.call (.tagList current)).run w.registry).2 at like
    generalize ((c.call (.tagList current)).run w.registry).2 = s at like ⊢
    generalize ((c.call (Activity.tagPass ⟨tally, current, rest⟩).call).run w.registry).1 = reply
      at cache goesOn ⊢
    cases rest with
    | nil =>
      dsimp only [Step.map, Step.andThen, PassTally.visit, PassTally.complete, Step.report,
        Progress.map] at cache ⊢
      rw [follow_done c]
      refine ⟨_, w'.cache, ⟨rfl, now, rfl, like⟩, ?_, ?_⟩
      · rw [cache]
        exact catalogJob_receive current w.cache reply
      · rw [cache]
        dsimp only
        rw [started_count]
    | cons repository rest =>
      simp only [Step.map, Step.andThen, PassTally.visit, Progress.map, Bool.false_eq_true, if_false]
        at cache ⊢
      obtain ⟨outcome, last, settles, catalogJob, tagsJob⟩ := inductionHypothesis
        ⟨tally.count (TagFetch.receive current w.cache reply).next, repository, rest⟩ w'
        (Nat.lt_of_succ_lt_succ enough)
      have after := c.like_after ((repository :: rest).map .tagList) like
      dsimp only at settles tagsJob
      rw [now] at settles
      refine ⟨outcome, last, ⟨settles.outcome, settles.now, settles.cache, ?_⟩, ?_, ?_⟩
      · exact settles.session.trans after
      · rw [catalogJob, cache]
        exact catalogJob_receive current w.cache reply
      · rw [tagsJob, now, started_count]

/-- So a refresh of the tags fetches those of all repositories of the catalog. -/
theorem settles_refreshTags (w : World Session) :
    ∃ outcome cache,
      Settles (w.perform c.registry (w.cache.catalog.size + 1) (.refreshTags false) none)
        (.pass outcome) w.now cache
        (c.after w.registry (w.cache.catalog.repositories.map .tagList)) ∧
      cache.catalogJob = w.cache.catalogJob ∧ cache.tagsJob = some (.ofRun w.now w.now) := by
  unfold perform Operation.begin TagPass.begin Catalog.size
  cases w.cache.catalog.repositories with
  | nil =>
    refine ⟨⟨0, 0, false⟩, { w.cache with tagsJob := some (.ofRun w.now w.now) }, ?_, rfl, rfl⟩
    exact ⟨rfl, rfl, rfl, .refl _⟩
  | cons repository rest =>
    exact settles_pass c (rest.length + 2) ⟨⟨w.now, rest.length + 1, 0, 0⟩, repository, rest⟩
      (w.record ⟨w.cache, [.ofTagsJob .info "Started caching tags for all repositories..."],
        [.tagList repository], ()⟩) (by dsimp only; omega)

/-! ## One repository -/

/-- Fetching the tags of a repository is one call for them, and they replace its entry if there are
    any. -/
theorem settles_fetchTags {bound : Nat} (room : 0 < bound) (repository : String) (w : World Session) :
    Settles (w.perform c.registry bound (.fetchTags repository) none)
      (.fetched ((c.tagList repository).run w.registry).1.toOption) w.now
      { w.cache with tags := match ((c.tagList repository).run w.registry).1 with
          | .ok tags => w.cache.tags.insert repository tags
          | .error _ => w.cache.tags }
      ((c.tagList repository).run w.registry).2 := by
  rcases ran : (c.tagList repository).run w.registry with ⟨reply, s⟩
  have ends : ((Activity.tagFetch repository).receive w.cache w.now false reply).next =
      .done (.fetched reply.toOption) := by
    cases reply <;> rfl
  have begins : (Operation.fetchTags repository).begin w.cache w.now =
      ⟨w.cache, [], [.tagList repository], .waiting (.tagFetch repository)⟩ := rfl
  have settles := settles_of_single c room begins ran ends
  dsimp only [Activity.receive, Step.cache_map] at settles
  rwa [TagFetch.cache_receive] at settles

/-! ## Deletions -/

/-- A deletion that does not find the manifest asks for nothing else. -/
theorem settles_deleteTag_error {bound : Nat} (room : 0 < bound) {repository tag : String}
    {w : World Session} {e : RegistryError} {s : Session}
    (ran : (c.lookup repository tag).run w.registry = (.error e, s)) :
    Settles (w.perform c.registry bound (.deleteTag repository tag) none)
      (.deleted false) w.now w.cache s := by
  have begins : (Operation.deleteTag repository tag).begin w.cache w.now =
      ⟨w.cache, [], [.lookup repository tag], .waiting (.lookup repository tag)⟩ := rfl
  exact settles_of_single c room begins ran rfl

/-- A deletion that finds the manifest asks for its removal, and that decides. -/
theorem settles_deleteTag_ok {bound : Nat} (room : 1 < bound) {repository tag : String}
    {w : World Session} {d : Descriptor} {s : Session}
    (ran : (c.lookup repository tag).run w.registry = (.ok d, s)) :
    ∃ cache, Settles (w.perform c.registry bound (.deleteTag repository tag) none)
      (.deleted ((c.removal repository d.digest).run s).1.isOk) w.now cache
      ((c.removal repository d.digest).run s).2 := by
  obtain ⟨bound, rfl⟩ := Nat.exists_eq_add_of_lt room
  obtain ⟨w₁, -, now, like, looksUp⟩ := follow_waiting c (bound + 1) (.lookup repository tag)
    (w.record (Operation.begin w.cache w.now (.deleteTag repository tag)))
  change (c.call (Activity.lookup repository tag).call).run
    (w.record (Operation.begin w.cache w.now (.deleteTag repository tag))).registry =
      (.ok d, s) at ran
  rw [ran] at like looksUp
  dsimp only [Activity.receive, Deletion.receiveLookup, Step.map, Progress.map] at looksUp
  obtain ⟨w₂, -, now', like', removes⟩ :=
    follow_waiting c bound (.removal repository tag d) w₁
  obtain ⟨result, after⟩ := c.ignoresReports_call (.removal repository d.digest) _ _ like
  change ((c.call (Activity.removal repository tag d).call).run w₁.registry).1 =
    ((c.removal repository d.digest).run s).1 at result
  rw [result] at removes
  rw [perform, show 1 + bound + 1 = bound + 1 + 1 by omega]
  dsimp only [Operation.begin, Deletion.begin, Step.map] at looksUp ⊢
  rw [looksUp, removes]
  have settled : w₂.registry.Like ((c.removal repository d.digest).run s).2 := like'.trans after
  generalize (c.removal repository d.digest).run s = removed at settled ⊢
  rcases removed with ⟨e | done, s'⟩ <;>
  · dsimp only [Activity.receive, Deletion.receiveRemoval, Step.report, Step.map]
    rw [follow_done c]
    exact ⟨w₂.cache, rfl, now'.trans now, rfl, settled⟩

end World

end RegistryCache
