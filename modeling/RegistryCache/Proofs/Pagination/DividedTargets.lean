import RegistryCache.Proofs.Pagination.Refreshes
import RegistryCache.Proofs.Pagination.TagWalks

/-! # Targets with commas and semicolons

A header is cut into links at commas, and a link into target and parameters at semicolons, wherever they
stand.  A target that has one of them between its brackets is cut to pieces, and then the header names no
page at all.  A page that names none is the last one, so a walk that comes to such a header is over, and
what it has gathered up to there is taken for the whole listing.  The main statement is
`RegistryClient.walks_on_iff_undivided`.
-/

namespace RegistryCache

open Link (Undivided IsReference header)

theorem Link.next?_header {target : String} (reference : IsReference target) :
    next? (header target) = if Undivided target then some target else none := by
  by_cases undivided : Undivided target
  · rw [if_pos undivided]
    exact next?_eq_some_iff.mpr (names_header undivided)
  · rw [if_neg undivided, Option.eq_none_iff_forall_ne_some]
    intro cursor found
    exact undivided (names_header_iff reference |>.mp (next?_eq_some_iff.mp found)).2

namespace Response

variable {r : Response} {target : String}

theorem nextLink?_of_header (named : r.header? "Link" = some (header target))
    (reference : IsReference target) :
    RegistryClient.nextLink? r = if Undivided target then some target else none := by
  rw [RegistryClient.nextLink?, named]
  exact Link.next?_header reference

end Response

namespace RegistryClient

open Session

/-- A page of the catalog is there, after an authentication if need be. -/
structure ServesCatalog (c : RegistryClient) (s : Session) (cursor : Option String)
    (response : Response) (repositories : List String) : Prop where
  answered : ∃ url, c.catalogUrl cursor = .ok url ∧
    (s.negotiation c.credentials (catalogInquiry url)).answer = .ok response
  success : response.status.isSuccess = true
  lists : response.json?.bind (Json.listing? "repositories") = some repositories

variable {c : RegistryClient} {s : Session} {cursor : Option String} {response : Response}
  {repositories : List String}

theorem ServesCatalog.result (serves : c.ServesCatalog s cursor response repositories) :
    ((c.catalogPage cursor).run s).1 = .ok ⟨repositories, nextLink? response⟩ := by
  obtain ⟨url, address, answered⟩ := serves.answered
  obtain ⟨result, -⟩ := (c.asks_catalogPage cursor s).run
  rw [address] at result
  dsimp only [Except.map, Except.bind] at result
  have concluded : (s.negotiation c.credentials (catalogInquiry url)).conclusion.bind catalogIn =
      catalogIn response := by
    rw [conclusion_bind answered, if_pos serves.success]
  calc ((c.catalogPage cursor).run s).1
      = (s.negotiation c.credentials (catalogInquiry url)).conclusion.bind catalogIn := result
    _ = catalogIn response := concluded
    _ = .ok ⟨repositories, nextLink? response⟩ := by rw [catalogIn, serves.lists]

/-- A target that is named as the next page, and nothing else in the header.  If no comma and no semicolon
    is in it, it is read as it stands there; a walk over the tags of a repository goes on to it, and so
    does a walk over the catalog, and nothing is written before that.  If there is one, nothing is read:
    the page is taken for the last one, and the cache takes over what the walk has gathered up to it. -/
theorem walks_on_iff_undivided (c : RegistryClient) {target : String}
    (reference : IsReference target) :
    Link.next? (header target) = (if Undivided target then some target else none) ∧
    (∀ repository s cursor n response tags, c.Meets repository s cursor n →
      Delivers n response tags → response.header? "Link" = some (header target) →
      (Undivided target → cursor ≠ some target →
        c.Leads repository s cursor [⟨cursor, n, tags, target⟩] (s.past n) (some target)) ∧
      (¬ Undivided target → c.Finishes repository s cursor n tags)) ∧
    (∀ (w : CatalogWalk) cache now s response repositories,
      c.ServesCatalog s w.cursor response repositories →
      response.header? "Link" = some (header target) →
      let step := w.receive cache now ((c.catalogPage w.cursor).run s).1
      (Undivided target → w.cursor ≠ some target →
        step.cache = cache ∧ step.begun = [.catalogPage (some target)]) ∧
      (¬ Undivided target → step.begun = [] ∧
        step.cache.catalog = (cache.catalog.commit (w.gathered ++ repositories)).1 ∧
        ∃ commit, step.next = .done (.ok (.committed commit)))) := by
  refine ⟨Link.next?_header reference, ?_, ?_⟩
  · intro repository s cursor n response tags meets delivers named
    have next := Response.nextLink?_of_header named reference
    constructor
    · intro undivided moves
      rw [if_pos undivided] at next
      exact .further meets delivers (Response.linksTo_iff.mpr next) moves .here
    · intro divided
      rw [if_neg divided] at next
      refine ⟨response, meets, delivers, ?_⟩
      intro other links
      rw [Response.linksTo_iff, next] at links
      cases links
  · intro w cache now s response repositories serves named step
    have page := serves.result
    rw [Response.nextLink?_of_header named reference] at page
    constructor
    · intro undivided moves
      rw [if_pos undivided] at page
      obtain ⟨notices, further⟩ := w.receive_of_further cache now repositories moves
      simp only [step, page, further]
      exact ⟨rfl, rfl⟩
    · intro divided
      rw [if_neg divided] at page
      obtain ⟨notices, last⟩ := w.receive_of_last cache now repositories
      simp only [step, page, last]
      exact ⟨rfl, rfl, _, rfl⟩

/-- A page of tags that names the next one. -/
def namingPage (target : String) : Response :=
  leadingPage target "\x7b\"tags\":[\"a\",\"b\"]\x7d"

/-- The page is there for somebody who gets a token. -/
def naming (target : String) : Session :=
  .start ⟨true, [wanting, holding "[\"one\",null]", .response (namingPage target),
    .response (lastPage true)], [], [], false⟩

theorem delivers_naming {target : String} (either : target = "/2?n=2" ∨ target = "/2;n=2") :
    ∃ n, namedClient.Meets "app" (naming target) none n ∧
      Delivers n (namingPage target) ["a", "b"] ∧
      (namingPage target).header? "Link" = some (header target) := by
  refine ⟨_, ⟨atRegistry ["v2", "app", "tags", "list"] none, ?_, rfl⟩,
    ⟨?_, rfl, Response.listsTags_iff.mpr ?_⟩, ?_⟩ <;>
  rcases either with rfl | rfl <;> decide +kernel

/-- A parameter behind a question mark is part of the target, and one behind a semicolon makes the first
    page the last. -/
theorem walks_on_iff_undivided_parameter :
    (IsReference "/2?n=2" ∧ ∃ n s, namedClient.Leads "app" (naming "/2?n=2") none
      [⟨none, n, ["a", "b"], "/2?n=2"⟩] s (some "/2?n=2")) ∧
    (IsReference "/2;n=2" ∧ ∃ n, namedClient.Finishes "app" (naming "/2;n=2") none n ["a", "b"]) := by
  have plain : IsReference "/2?n=2" ∧ Undivided "/2?n=2" := by decide
  have parted : IsReference "/2;n=2" ∧ ¬ Undivided "/2;n=2" := by decide
  obtain ⟨-, tags, -⟩ := namedClient.walks_on_iff_undivided plain.1
  obtain ⟨-, tags', -⟩ := namedClient.walks_on_iff_undivided parted.1
  obtain ⟨n, meets, delivers, named⟩ := delivers_naming (.inl rfl)
  obtain ⟨n', meets', delivers', named'⟩ := delivers_naming (.inr rfl)
  exact ⟨⟨plain.1, n, _, (tags _ _ _ _ _ _ meets delivers named).1 plain.2 nofun⟩,
    parted.1, n', (tags' _ _ _ _ _ _ meets' delivers' named').2 parted.2⟩

/-- A reference may have a comma, and this one begins a page of the catalog that is never read. -/
theorem comma_hides_next_page :
    IsReference "/v2/_catalog?last=a,b&n=2" ∧ Link.next? (header "/v2/_catalog?last=a,b&n=2") = none ∧
      ¬ ∀ target, IsReference target → Link.next? (header target) = some target := by
  have reference : IsReference "/v2/_catalog?last=a,b&n=2" := by decide
  have hidden : Link.next? (header "/v2/_catalog?last=a,b&n=2") = none := by decide +kernel
  refine ⟨reference, hidden, fun found => ?_⟩
  rw [found _ reference] at hidden
  cases hidden

end RegistryClient

end RegistryCache
