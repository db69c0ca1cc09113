import RegistryCache.Proofs.Interleaving.Waiting

/-! # The catalog after any history

The catalog is told by the pages that have arrived, and by nothing else that happens.  A
`CatalogHistory` reads them off the events of a run: which pages each party's walk has brought so far,
and which walks were brought to their last page.  The catalog is ready as soon as one walk was, and
lists what the last of them brought that was not empty.  The main statement is
`Interleaving.catalog_follows_history`.
-/

namespace RegistryCache

/-! ## Walks as their pages -/

/-- A page with the cursor it was asked for. -/
abbrev PageHeard := Option String × CatalogPage

/-- The repositories of several pages, one page after the other. -/
def repositoriesOf (pages : List PageHeard) : List String := pages.flatMap (·.2.repositories)

/-- Pages that lead to a cursor: the first was asked for without one, each of the others with the
    cursor that the page before it named, and the last names the one they lead to. -/
inductive LeadsTo : List PageHeard → Option String → Prop where
  | nil : LeadsTo [] none
  | snoc {pages : List PageHeard} {cursor : Option String} {page : CatalogPage}
      (before : LeadsTo pages cursor) (further : page.next ≠ none) :
      LeadsTo (pages ++ [(cursor, page)]) page.next

/-- The pages of a whole walk: they lead to a page that names no further one. -/
def IsWalk (walk : List PageHeard) : Prop :=
  ∃ pages cursor page, LeadsTo pages cursor ∧ page.next = none ∧ walk = pages ++ [(cursor, page)]

/-- What the last of some walks brought that brought anything. -/
def latestNonempty (walks : List (List PageHeard)) : List String :=
  ((walks.map repositoriesOf).filter (· ≠ [])).getLast?.getD []

theorem repositoriesOf_snoc (pages : List PageHeard) (heard : PageHeard) :
    repositoriesOf (pages ++ [heard]) = repositoriesOf pages ++ heard.2.repositories := by
  simp [repositoriesOf]

theorem latestNonempty_snoc (walks : List (List PageHeard)) (walk : List PageHeard) :
    latestNonempty (walks ++ [walk]) =
      if repositoriesOf walk = [] then latestNonempty walks else repositoriesOf walk := by
  unfold latestNonempty
  by_cases empty : repositoriesOf walk = [] <;> simp [empty]

theorem Catalog.repositories_commit (catalog : Catalog) (walked : List String) :
    (catalog.commit walked).1.repositories =
      if walked = [] then catalog.repositories else walked := by
  cases walked <;> rfl

/-! ## What the events tell -/

/-- The pages that have arrived. -/
structure CatalogHistory where
  /-- The pages of each party's latest walk so far. -/
  pages : Party → List PageHeard
  /-- The walks whose last page has arrived, in order. -/
  completed : List (List PageHeard)

namespace CatalogHistory

def empty : CatalogHistory := ⟨fun _ => [], []⟩

/-- The pages of a walk that waits for the page at `cursor`: none, if that is its first. -/
def soFar (h : CatalogHistory) (p : Party) (cursor : Option String) : List PageHeard :=
  if cursor = none then [] else h.pages p

def hear (h : CatalogHistory) (p : Party) (heard : PageHeard) : CatalogHistory :=
  let walk := h.soFar p heard.1 ++ [heard]
  { pages := Function.update h.pages p walk
    completed := if heard.2.next = none then h.completed ++ [walk] else h.completed }

def record (h : CatalogHistory) (e : Event) : CatalogHistory :=
  match e.party?, e.action?.bind Action.page? with
  | some p, some heard => h.hear p heard
  | _, _ => h

def ofEvents (events : List Event) : CatalogHistory := events.foldl record empty

@[simp] theorem ofEvents_snoc (events : List Event) (e : Event) :
    ofEvents (events ++ [e]) = (ofEvents events).record e := by
  simp [ofEvents]

theorem soFar_hear_of_ne {h : CatalogHistory} {p q : Party} (other : q ≠ p) (heard : PageHeard)
    (cursor : Option String) : (h.hear p heard).soFar q cursor = h.soFar q cursor := by
  simp [soFar, hear, Function.update_of_ne other]

theorem soFar_hear_self {h : CatalogHistory} {p : Party} (heard : PageHeard) (cursor : String) :
    (h.hear p heard).soFar p (some cursor) = h.soFar p heard.1 ++ [heard] := by
  simp [soFar, hear]

end CatalogHistory

/-! ## The invariant -/

namespace Interleaving

/-- The cache and the walks under way are what a history tells. -/
structure Follows (σ : Interleaving) (h : CatalogHistory) : Prop where
  /-- A walk under way has gathered the repositories of its pages, which lead to its cursor. -/
  underWay : ∀ p w, σ.activity? p = some (.catalogWalk w) →
    LeadsTo (h.soFar p w.cursor) w.cursor ∧ repositoriesOf (h.soFar p w.cursor) = w.gathered
  whole : ∀ walk ∈ h.completed, IsWalk walk
  list : σ.cache.catalog.repositories = latestNonempty h.completed
  ready : σ.cache.catalog.ready = true ↔ h.completed ≠ []
  job : σ.cache.catalogJob.isSome = true ↔ h.completed ≠ []

variable {σ σ' : Interleaving} {h : CatalogHistory} {e : Event}

theorem follows_fresh (policy : RefreshPolicy) (now : Instant) :
    (idle (.fresh policy) now).Follows .empty where
  underWay := by
    intro p w waiting
    cases p <;> cases waiting
  whole := by
    intro walk member
    cases member
  list := rfl
  ready := by simp [idle, MetadataCache.fresh, Catalog.empty, CatalogHistory.empty]
  job := by simp [idle, MetadataCache.fresh, CatalogHistory.empty]

/-- An event that brings no page: at most a walk begins. -/
theorem Follows.without_page (follows : σ.Follows h) (move : Move σ e σ')
    (silent : e.action?.bind Action.page? = none) : σ'.Follows h := by
  have unfinished : ∀ action, e.action? = some action → ¬ action.CompletesWalk := by
    rintro action acts ⟨cursor, page, brings, _⟩
    rw [acts, Option.bind_some, brings] at silent
    cases silent
  obtain ⟨catalog, job⟩ := move.catalog_eq unfinished
  refine ⟨?_, follows.whole, ?_, ?_, ?_⟩
  · intro p w waiting
    by_cases acts : e.party? = some p
    · cases e with
      | elapse | start | stop => cases acts
      | act q action begun outcome =>
        cases acts
        obtain ⟨_, before⟩ | ⟨_, first, nothing⟩ | ⟨w₀, page, cursor, _, brings, _⟩ :=
          move.walks waiting
        · exact follows.underWay p w before
        · rw [first, nothing]
          exact ⟨.nil, rfl⟩
        · rw [Event.action?, Option.bind_some, brings] at silent
          cases silent
    · -- who did not move waits as before
      rw [move.activity_other acts] at waiting
      exact follows.underWay p w waiting
  · rw [catalog, follows.list]
  · rw [catalog, follows.ready]
  · rw [job, follows.job]

theorem Follows.underWay_hear {p : Party} {action : Action} {begun : List Call}
    {outcome : Option Outcome} {heard : PageHeard} (follows : σ.Follows h)
    (move : Move σ (.act p action begun outcome) σ') (brings : action.page? = some heard) (q : Party)
    (w : CatalogWalk) (waiting : σ'.activity? q = some (.catalogWalk w)) :
    LeadsTo ((h.hear p heard).soFar q w.cursor) w.cursor ∧
      repositoriesOf ((h.hear p heard).soFar q w.cursor) = w.gathered := by
  by_cases same : q = p
  · subst same
    obtain ⟨silent, _⟩ | ⟨silent, _⟩ | ⟨w₀, page, cursor, before, brings', named, rfl⟩ :=
      move.walks waiting
    · rw [brings] at silent
      cases silent
    · rw [brings] at silent
      cases silent
    · -- the walk was where the history says, and has taken one step from there
      rw [brings] at brings'
      cases brings'
      obtain ⟨leads, gathered⟩ := follows.underWay q w₀ before
      rw [CatalogHistory.soFar_hear_self, repositoriesOf_snoc, gathered, ← named]
      exact ⟨.snoc leads (by simp [named]), rfl⟩
  · have other : (Event.act p action begun outcome).party? ≠ some q := by
      intro equal
      cases equal
      exact same rfl
    rw [move.activity_other other] at waiting
    rw [CatalogHistory.soFar_hear_of_ne same]
    exact follows.underWay q w waiting

/-- An event that brings a page.  The last one of a walk is what changes the catalog. -/
theorem Follows.hear {p : Party} {action : Action} {begun : List Call} {outcome : Option Outcome}
    {heard : PageHeard} (follows : σ.Follows h) (move : Move σ (.act p action begun outcome) σ')
    (brings : action.page? = some heard) : σ'.Follows (h.hear p heard) := by
  obtain ⟨cursor, page⟩ := heard
  have underWay := follows.underWay_hear move brings
  by_cases last : page.next = none
  · -- the walk is complete: what its pages brought is what the cache takes over
    obtain ⟨walk, waiting, rfl, catalog, job⟩ := move.catalog_commit brings last
    obtain ⟨leads, gathered⟩ := follows.underWay p walk waiting
    have completed : (h.hear p (walk.cursor, page)).completed =
        h.completed ++ [h.soFar p walk.cursor ++ [(walk.cursor, page)]] := if_pos last
    have brought : repositoriesOf (h.soFar p walk.cursor ++ [(walk.cursor, page)]) =
        walk.gathered ++ page.repositories := by
      rw [repositoriesOf_snoc, gathered]
    refine ⟨underWay, ?_, ?_, ?_, ?_⟩
    · intro one member
      rw [completed] at member
      rcases List.mem_append.mp member with earlier | latest
      · exact follows.whole one earlier
      · exact ⟨_, _, page, leads, last, List.mem_singleton.mp latest⟩
    · rw [catalog, completed, latestNonempty_snoc, brought, Catalog.repositories_commit,
        follows.list]
    · rw [catalog, completed]
      simp
    · rw [job, completed]
      simp
  · have completed : (h.hear p (cursor, page)).completed = h.completed := if_neg last
    have unfinished : ∀ act, (Event.act p action begun outcome).action? = some act →
        ¬ act.CompletesWalk := by
      rintro act equal ⟨cursor', page', brings', last'⟩
      cases equal
      rw [brings] at brings'
      cases brings'
      exact last last'
    obtain ⟨catalog, job⟩ := move.catalog_eq unfinished
    exact ⟨underWay, completed ▸ follows.whole, by rw [catalog, completed, follows.list],
      by rw [catalog, completed, follows.ready], by rw [job, completed, follows.job]⟩

theorem Follows.move (follows : σ.Follows h) (move : Move σ e σ') : σ'.Follows (h.record e) := by
  cases brings : e.action?.bind Action.page? with
  | none =>
    have unrecorded : h.record e = h := by
      rw [CatalogHistory.record, brings]
      cases e.party? <;> rfl
    rw [unrecorded]
    exact follows.without_page move brings
  | some heard =>
    cases e with
    | elapse | start | stop => cases brings
    | act p action begun outcome =>
      have recorded : h.record (.act p action begun outcome) = h.hear p heard := by
        rw [CatalogHistory.record, brings]
        rfl
      rw [recorded]
      exact follows.hear move brings

theorem Run.follows {policy : RefreshPolicy} {now : Instant} {events : List Event}
    (run : Run (idle (.fresh policy) now) events σ) : σ.Follows (.ofEvents events) := by
  induction run with
  | refl => exact follows_fresh policy now
  | step _ move inductionHypothesis =>
    rw [CatalogHistory.ofEvents_snoc]
    exact inductionHypothesis.move move

/-- The catalog over whole runs.  Whatever was done to a cache that knew nothing, by any number of
    callers and loops and in any order:

    * the list is what the last walk brought that was brought to its end and was not empty;
    * the catalog is ready exactly if the catalog job is on record, and nothing is listed before;
    * it never gets unready again;
    * only the last page of a walk changes the catalog or its job, so walks that fail or are given up
      change nothing, and neither do fetches, passes, listings and deletions;
    * a walk that was empty leaves the list as it was. -/
theorem catalog_follows_history {policy : RefreshPolicy} {now : Instant} {events : List Event}
    (run : Run (idle (.fresh policy) now) events σ) :
    (∀ walk ∈ (CatalogHistory.ofEvents events).completed, IsWalk walk) ∧
    σ.cache.catalog.repositories = latestNonempty (CatalogHistory.ofEvents events).completed ∧
    (σ.cache.catalog.ready = true ↔ σ.cache.catalogJob.isSome = true) ∧
    (σ.cache.catalog.ready = false →
      σ.cache.catalog.repositories = [] ∧ σ.cache.catalogJob = none) ∧
    (∀ later σ₁, Run σ later σ₁ → σ.cache.catalog.ready = true →
      σ₁.cache.catalog.ready = true) ∧
    (∀ e σ₁, Move σ e σ₁ →
      ((∀ action, e.action? = some action → ¬ action.CompletesWalk) →
        σ₁.cache.catalog = σ.cache.catalog ∧ σ₁.cache.catalogJob = σ.cache.catalogJob) ∧
      (∀ walk, (CatalogHistory.ofEvents (events ++ [e])).completed =
          (CatalogHistory.ofEvents events).completed ++ [walk] → repositoriesOf walk = [] →
        σ₁.cache.catalog.repositories = σ.cache.catalog.repositories)) := by
  have follows := run.follows
  refine ⟨follows.whole, follows.list, follows.ready.trans follows.job.symm, ?_, ?_, ?_⟩
  · intro unready
    -- a walk that was completed would have made the catalog ready
    have untouched : (CatalogHistory.ofEvents events).completed = [] := by
      by_contra completed
      rw [follows.ready.mpr completed] at unready
      cases unready
    refine ⟨by rw [follows.list, untouched]; rfl, ?_⟩
    rw [← Option.isNone_iff_eq_none, ← Option.not_isSome, Bool.not_eq_true', Bool.eq_false_iff]
    intro recorded
    exact follows.job.mp recorded untouched
  · intro later σ₁ further ready
    exact further.keeps ready Move.ready
  · intro e σ₁ move
    refine ⟨move.catalog_eq, ?_⟩
    intro walk completed brought
    rw [(run.step move).follows.list, completed, latestNonempty_snoc, if_pos brought, follows.list]

/-- Two callers walk at once.  One of them gives up; the other completes a walk of two pages, and then
    one that is empty. -/
theorem catalog_follows_history_overlapping :
    ∃ events σ, Run (idle (.fresh .standard) 0) events σ ∧
      (CatalogHistory.ofEvents events).completed =
        [[(none, ⟨["app"], some "app"⟩), (some "app", ⟨["web"], none⟩)], [(none, ⟨[], none⟩)]] ∧
      σ.cache.catalog.repositories = ["app", "web"] := by
  have first : Run (idle (.fresh .standard) 0) _ _ := .single (.begin (i := 0) rfl .refreshCatalog)
  have second := first.step (.begin (i := 1) rfl .refreshCatalog)
  have third := second.step (.hear (i := 0) rfl false (.ok (⟨["app"], some "app"⟩ : CatalogPage)))
  have fourth := third.step (.quit (i := 1) rfl)
  have fifth := fourth.step (.hear (i := 0) rfl false (.ok (⟨["web"], none⟩ : CatalogPage)))
  have sixth := fifth.step (.begin (i := 0) rfl .refreshCatalog)
  have seventh := sixth.step (.hear (i := 0) rfl false (.ok (⟨[], none⟩ : CatalogPage)))
  exact ⟨_, _, seventh, rfl, (catalog_follows_history seventh).2.1⟩

end Interleaving

end RegistryCache
