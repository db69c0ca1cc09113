import Mathlib.Data.List.Chain
import RegistryCache.Proofs.Interleaving.Effects

/-! # Refreshes of the catalog, page by page

A refresh takes over all pages of a chain or none, and where one page ends and the next begins does not
show in what is taken over.  A `PageArrival` is the reply to one page together with the cache and the
clock that it finds, and `CatalogWalk.course` is what a refresh does as such replies arrive: between two
of them the cache may change in any way.  The main statement is `CatalogWalk.refresh_all_or_nothing`.
-/

namespace RegistryCache

/-! ## Chains of pages -/

/-- Pages in a chain: those that lead on, each with the cursor of the one behind it, and the last. -/
structure PageChain where
  leading : List (List String × String)
  last : List String

namespace PageChain

def names (chain : PageChain) : List String := chain.leading.flatMap Prod.fst ++ chain.last

def pages (chain : PageChain) : List CatalogPage :=
  chain.leading.map (fun page => ⟨page.1, some page.2⟩) ++ [⟨chain.last, none⟩]

/-- The cursors under which the pages are asked for; the first one has none. -/
def cursors (chain : PageChain) : List (Option String) :=
  none :: chain.leading.map fun page => some page.2

/-- No page names the cursor that it was asked for with. -/
def Advances (chain : PageChain) : Prop := chain.cursors.IsChain (· ≠ ·)

instance (chain : PageChain) : Decidable chain.Advances :=
  inferInstanceAs (Decidable (chain.cursors.IsChain (· ≠ ·)))

end PageChain

/-- A reply to the request for the page at a cursor that fails a walk, and why: there is no page, or
    the page names the cursor that it was asked for with. -/
inductive Breaks (cursor : Option String) :
    Except RegistryError CatalogPage → RegistryError → Prop where
  | failure (e : RegistryError) : Breaks cursor (.error e) e
  | standstill {page : CatalogPage} {next : String} (named : page.next = some next)
      (same : cursor = some next) :
      Breaks cursor (.ok page) ⟨.registry, s!"Catalog pagination did not advance past {next}"⟩

/-- A reply to a page, and how the cache and the clock stand when it arrives. -/
structure PageArrival where
  cache : MetadataCache
  now : Instant
  reply : Except RegistryError CatalogPage

namespace CatalogWalk

/-! ## One page -/

variable (w : CatalogWalk) (cache : MetadataCache) (now : Instant)

theorem receive_of_breaks {reply : Except RegistryError CatalogPage} {reason : RegistryError}
    (breaks : Breaks w.cursor reply reason) :
    ∃ notices, w.receive cache now reply = { fail cache reason with notices := notices } := by
  cases breaks with
  | failure => exact ⟨_, rfl⟩
  | standstill named same =>
    simp only [receive, nextCursor, named, if_pos same]
    exact ⟨_, rfl⟩

theorem receive_of_further (names : List String) {next : String} (moves : w.cursor ≠ some next) :
    ∃ notices, w.receive cache now (.ok ⟨names, some next⟩) =
      { request ⟨w.started, some next, w.gathered ++ names⟩ cache with notices := notices } := by
  simp only [receive, nextCursor, if_neg moves]
  exact ⟨_, rfl⟩

theorem receive_of_last (names : List String) :
    ∃ notices, w.receive cache now (.ok ⟨names, none⟩) =
      { complete cache now w.started (w.gathered ++ names) with notices := notices } :=
  ⟨_, rfl⟩

/-- A reply fails the walk, leads on, or is the last page. -/
theorem reply_cases (cursor : Option String) (reply : Except RegistryError CatalogPage) :
    (∃ reason, Breaks cursor reply reason) ∨
    (∃ names next, reply = .ok ⟨names, some next⟩ ∧ cursor ≠ some next) ∨
    (∃ names, reply = .ok ⟨names, none⟩) := by
  cases reply with
  | error e => exact .inl ⟨e, .failure e⟩
  | ok page =>
    obtain ⟨names, next⟩ := page
    cases next with
    | none => exact .inr (.inr ⟨names, rfl⟩)
    | some next =>
      by_cases same : cursor = some next
      · exact .inl ⟨_, .standstill rfl same⟩
      · exact .inr (.inl ⟨names, next, rfl, same⟩)

/-- What a walk that is over has written and says, in terms of all the names it has walked over. -/
theorem complete_eq (started : Instant) (walked : List String) :
    (complete cache now started walked).cache =
        { cache with
          catalog := ⟨if walked = [] then cache.catalog.repositories else walked, true⟩
          catalogJob := some (.ofRun started now) } ∧
      (complete cache now started walked).next = .done (.ok (.committed
        (if walked = [] then .emptyIgnored cache.catalog.size else .replaced walked.length))) := by
  cases walked <;> exact ⟨rfl, rfl⟩

/-- A walk ends in an error only where there is nothing to serve. -/
theorem receive_fails_iff {reply : Except RegistryError CatalogPage} {e : RegistryError} :
    (w.receive cache now reply).next = .done (.error e) ↔
      ∃ reason, Breaks w.cursor reply reason ∧ cache.catalog.ready = false ∧
        e = ⟨.catalogUnavailable, reason.message⟩ := by
  constructor
  · intro fails
    obtain ⟨reason, breaks⟩ | ⟨names, next, rfl, moves⟩ | ⟨names, rfl⟩ := reply_cases w.cursor reply
    · obtain ⟨notices, equal⟩ := w.receive_of_breaks cache now breaks
      rw [equal] at fails
      cases ready : cache.catalog.ready <;> simp [ready] at fails
      exact ⟨reason, breaks, rfl, fails.symm⟩
    · obtain ⟨notices, equal⟩ := w.receive_of_further cache now names moves
      rw [equal] at fails
      cases fails
    · obtain ⟨notices, equal⟩ := w.receive_of_last cache now names
      rw [equal] at fails
      simp [complete_eq] at fails
  · rintro ⟨reason, breaks, unready, rfl⟩
    obtain ⟨notices, equal⟩ := w.receive_of_breaks cache now breaks
    rw [equal]
    simp [unready]

/-- A walk that ends well leaves a catalog that is ready. -/
theorem ready_of_receive {reply : Except RegistryError CatalogPage} {result : CatalogRefresh}
    (succeeds : (w.receive cache now reply).next = .done (.ok result)) :
    (w.receive cache now reply).cache.catalog.ready = true := by
  obtain ⟨reason, breaks⟩ | ⟨names, next, rfl, moves⟩ | ⟨names, rfl⟩ := reply_cases w.cursor reply
  · obtain ⟨notices, equal⟩ := w.receive_of_breaks cache now breaks
    rw [equal] at succeeds ⊢
    cases ready : cache.catalog.ready <;> simp [ready] at succeeds
    exact ready
  · obtain ⟨notices, equal⟩ := w.receive_of_further cache now names moves
    rw [equal] at succeeds
    cases succeeds
  · obtain ⟨notices, equal⟩ := w.receive_of_last cache now names
    rw [equal]
    simp [complete_eq]

/-! ## Page after page -/

/-- The steps that a walk takes as replies arrive.  What arrives after its end goes unheard. -/
def course : List PageArrival → Going → List (Step Going)
  | arrival :: later, .waiting w =>
    let step := w.receive arrival.cache arrival.now arrival.reply
    step :: course later step.next
  | _, _ => []

@[simp] theorem course_done (arrivals : List PageArrival)
    (result : Except RegistryError CatalogRefresh) : course arrivals (.done result) = [] := by
  cases arrivals <;> rfl

variable {w}

/-- As long as pages lead on, a walk writes nothing, asks for one page after the other, and gathers
    their names. -/
theorem course_leading {leading : List (List String × String)} {arrivals : List PageArrival}
    (later : List PageArrival)
    (advances : (w.cursor :: leading.map fun page => some page.2).IsChain (· ≠ ·))
    (heard : arrivals.map PageArrival.reply =
      leading.map fun page => .ok ⟨page.1, some page.2⟩) :
    ∃ quiet, quiet.map Step.cache = arrivals.map PageArrival.cache ∧
      quiet.flatMap Step.begun = leading.map (fun page => Call.catalogPage (some page.2)) ∧
      course (arrivals ++ later) (.waiting w) = quiet ++ course later
        (.waiting ⟨w.started, (w.cursor :: leading.map fun page => some page.2).getLast (by simp),
          w.gathered ++ leading.flatMap Prod.fst⟩) := by
  induction leading generalizing w arrivals with
  | nil =>
    have none : arrivals = [] := by simpa using heard
    subst none
    exact ⟨[], rfl, rfl, by simp⟩
  | cons page leading inductionHypothesis =>
    obtain ⟨names, next⟩ := page
    cases arrivals with
    | nil => simp at heard
    | cons arrival arrivals =>
      simp only [List.map_cons, List.cons.injEq] at heard
      obtain ⟨reply, heard⟩ := heard
      obtain ⟨moves, advances⟩ := List.isChain_cons_cons.mp advances
      obtain ⟨notices, step⟩ := w.receive_of_further arrival.cache arrival.now names moves
      -- the rest is walked from the cursor that this page has named
      obtain ⟨quiet, caches, calls, walked⟩ := inductionHypothesis
        (w := ⟨w.started, some next, w.gathered ++ names⟩) advances heard
      refine ⟨w.receive arrival.cache arrival.now (.ok ⟨names, some next⟩) :: quiet, ?_, ?_, ?_⟩
      · rw [List.map_cons, List.map_cons, caches, step]
        rfl
      · rw [List.flatMap_cons, calls, step]
        rfl
      · rw [List.cons_append, course, reply, step]
        simp only [request, walked, List.cons_append, List.flatMap_cons, List.append_assoc]
        rfl

/-- A refresh that has come to some page of a chain: nothing is written yet, and the pages up to this
    one are asked for. -/
theorem course_begin {chain : PageChain} (advances : chain.Advances) {k : Nat}
    {cursor : Option String} (position : chain.cursors[k]? = some cursor)
    {before : List PageArrival} (arrival : PageArrival) (later : List PageArrival)
    (heard : before.map PageArrival.reply = (chain.pages.take k).map .ok) :
    ∃ quiet, quiet.map Step.cache = before.map PageArrival.cache ∧
      (begin cache now).begun ++ quiet.flatMap Step.begun =
        (chain.cursors.take (k + 1)).map Call.catalogPage ∧
      course (before ++ arrival :: later) (begin cache now).next = quiet ++
        course (arrival :: later) (.waiting ⟨now, cursor, (chain.leading.take k).flatMap Prod.fst⟩) := by
  obtain ⟨inside, stands⟩ := List.getElem?_eq_some_iff.mp position
  have bound : k ≤ chain.leading.length := by
    simpa [PageChain.cursors, Nat.lt_succ_iff] using inside
  have cut : chain.cursors.take (k + 1) =
      none :: (chain.leading.take k).map fun page => some page.2 := by
    simp [PageChain.cursors, List.map_take]
  have led : (chain.pages.take k).map (.ok : CatalogPage → Except RegistryError CatalogPage) =
      (chain.leading.take k).map fun page => .ok ⟨page.1, some page.2⟩ := by
    rw [PageChain.pages, List.take_append_of_le_length (by simpa using bound), ← List.map_take,
      List.map_map]
    rfl
  have moves : (none :: (chain.leading.take k).map fun page => some page.2).IsChain (· ≠ ·) :=
    cut ▸ advances.take (k + 1)
  obtain ⟨quiet, caches, calls, walked⟩ := course_leading (w := ⟨now, none, []⟩)
    (arrival :: later) moves (heard.trans led)
  -- the last of the cursors that were asked for is the one at this position
  have here : (none :: (chain.leading.take k).map fun page => some page.2).getLast (by simp) =
      cursor := by
    rw [← stands, List.getLast_eq_getElem]
    simp only [← cut, List.getElem_take]
    congr 1
    simp [PageChain.cursors, bound]
  refine ⟨quiet, caches, ?_, ?_⟩
  · rw [calls, cut, begun_begin, List.map_cons, List.map_map]
    rfl
  · rw [next_begin, walked, here]
    rfl

/-- A refresh takes over all pages of a chain or none.  Whatever becomes of the cache between the
    arrivals of the pages:

    * if all pages arrive, the refresh has asked for the first one without a cursor and for the others
      under their cursors, in order; it has written nothing before the last page; and then the list is
      what is on all pages together, wherever one ends and the next begins, or what it was if nothing
      is on them, and the catalog is ready;
    * if any page fails, or names the cursor that it was asked for with, no page behind it is asked
      for and nothing at all is written; the refresh has failed if the catalog was not ready, and has
      kept the list otherwise. -/
theorem refresh_all_or_nothing (cache : MetadataCache) (now : Instant) {chain : PageChain}
    (advances : chain.Advances) :
    (∀ before last later,
      (before ++ [last]).map PageArrival.reply = chain.pages.map .ok →
      ∃ quiet done, course (before ++ last :: later) (begin cache now).next = quiet ++ [done] ∧
        (begin cache now).begun ++ (quiet ++ [done]).flatMap Step.begun =
          chain.cursors.map Call.catalogPage ∧
        quiet.map Step.cache = before.map PageArrival.cache ∧
        done.cache = { last.cache with
          catalog :=
            ⟨if chain.names = [] then last.cache.catalog.repositories else chain.names, true⟩
          catalogJob := some (.ofRun now last.now) } ∧
        done.next = .done (.ok (.committed (if chain.names = []
          then .emptyIgnored last.cache.catalog.size else .replaced chain.names.length)))) ∧
    (∀ k cursor before bad reason later, chain.cursors[k]? = some cursor →
      before.map PageArrival.reply = (chain.pages.take k).map .ok →
      Breaks cursor bad.reply reason →
      ∃ quiet done, course (before ++ bad :: later) (begin cache now).next = quiet ++ [done] ∧
        (begin cache now).begun ++ (quiet ++ [done]).flatMap Step.begun =
          (chain.cursors.take (k + 1)).map Call.catalogPage ∧
        quiet.map Step.cache = before.map PageArrival.cache ∧
        done.cache = bad.cache ∧
        done.next = .done (if bad.cache.catalog.ready then .ok .keptStale
          else .error ⟨.catalogUnavailable, reason.message⟩)) := by
  constructor
  · intro before last later heard
    -- the last page is the one behind those that lead on
    obtain ⟨cursor, position⟩ : ∃ cursor, chain.cursors[chain.leading.length]? = some cursor :=
      ⟨_, List.getElem?_eq_getElem (by simp [PageChain.cursors])⟩
    obtain ⟨leading, reply⟩ : before.map PageArrival.reply =
        (chain.pages.take chain.leading.length).map .ok ∧ last.reply = .ok ⟨chain.last, none⟩ := by
      rw [PageChain.pages, List.map_append, List.map_append, List.map_singleton,
        List.map_singleton] at heard
      obtain ⟨leading, reply⟩ := List.append_inj' heard rfl
      refine ⟨?_, List.singleton_inj.mp reply⟩
      rw [leading, PageChain.pages, List.take_left' (by simp)]
    obtain ⟨quiet, caches, calls, walked⟩ :=
      course_begin cache now advances position last later leading
    obtain ⟨notices, step⟩ := receive_of_last
      ⟨now, cursor, (chain.leading.take chain.leading.length).flatMap Prod.fst⟩
      last.cache last.now chain.last
    rw [List.take_length, ← PageChain.names] at step
    obtain ⟨written, said⟩ := complete_eq last.cache last.now now chain.names
    refine ⟨quiet, { complete last.cache last.now now chain.names with notices := notices },
      ?_, ?_, caches, written, said⟩
    · rw [walked, course, reply, List.take_length, step, said, course_done]
    · have all : chain.cursors.take (chain.leading.length + 1) = chain.cursors :=
        List.take_of_length_le (by simp [PageChain.cursors])
      rw [List.flatMap_append, ← List.append_assoc, calls, all]
      exact List.append_nil _
  · intro k cursor before bad reason later position heard breaks
    obtain ⟨quiet, caches, calls, walked⟩ := course_begin cache now advances position bad later heard
    obtain ⟨notices, step⟩ := receive_of_breaks
      ⟨now, cursor, (chain.leading.take k).flatMap Prod.fst⟩ bad.cache bad.now breaks
    refine ⟨quiet, { fail bad.cache reason with notices := notices }, ?_, ?_, caches, rfl, rfl⟩
    · rw [walked, course, step]
      simp
    · rw [List.flatMap_append, ← List.append_assoc, calls]
      exact List.append_nil _

/-- Three pages, of which the second is empty.  Tags are fetched while they are read.  If the second
    page names its own cursor, the third is never asked for. -/
theorem refresh_all_or_nothing_three_pages :
    let cache := MetadataCache.fresh .standard
    let fetched := { cache with tags := cache.tags.insert "a" ["v1"] }
    let chain : PageChain := ⟨[(["b"], "1"), ([], "2")], ["a"]⟩
    chain.Advances ∧
      (∃ quiet done,
        course [⟨cache, 3, .ok ⟨["b"], some "1"⟩⟩, ⟨cache, 4, .ok ⟨[], some "2"⟩⟩,
          ⟨fetched, 9, .ok ⟨["a"], none⟩⟩] (begin cache 2).next = quiet ++ [done] ∧
        done.cache = ⟨.standard, ⟨["b", "a"], true⟩, fetched.tags, some (.ofRun 2 9), none⟩) ∧
      ∃ quiet done,
        course [⟨cache, 3, .ok ⟨["b"], some "1"⟩⟩, ⟨fetched, 4, .ok ⟨[], some "1"⟩⟩,
          ⟨fetched, 9, .ok ⟨["a"], none⟩⟩] (begin cache 2).next = quiet ++ [done] ∧
        (begin cache 2).begun ++ (quiet ++ [done]).flatMap Step.begun =
          [.catalogPage none, .catalogPage (some "1")] ∧
        done.cache = fetched := by
  intro cache fetched chain
  have advances : chain.Advances := by decide
  have whole := refresh_all_or_nothing cache 2 advances
  refine ⟨advances, ?_, ?_⟩
  · obtain ⟨quiet, done, walked, _, _, written, _⟩ := whole.1
      [⟨cache, 3, .ok ⟨["b"], some "1"⟩⟩, ⟨cache, 4, .ok ⟨[], some "2"⟩⟩]
      ⟨fetched, 9, .ok ⟨["a"], none⟩⟩ [] rfl
    exact ⟨quiet, done, walked, written⟩
  · obtain ⟨quiet, done, walked, calls, _, unwritten, _⟩ := whole.2 1 (some "1")
      [⟨cache, 3, .ok ⟨["b"], some "1"⟩⟩] ⟨fetched, 4, .ok ⟨[], some "1"⟩⟩ _
      [⟨fetched, 9, .ok ⟨["a"], none⟩⟩] rfl rfl (.standstill rfl rfl)
    exact ⟨quiet, done, walked, calls, unwritten⟩

end CatalogWalk

end RegistryCache
