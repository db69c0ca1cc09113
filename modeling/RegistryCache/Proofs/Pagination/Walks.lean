import RegistryCache.Proofs.Interleaving.Effects
import RegistryCache.Proofs.Pagination.Listing
import RegistryCache.Proofs.Pagination.Replies

/-! # Walks over a listing

The catalog and the tags of a repository are read page by page, the one by a `CatalogWalk` that hears
one reply at a time, the other by `RegistryClient.tagList` over a session.  Both do what a reader of
the listing does, so both come to an end if and only if the cursors never lead back to an earlier one.
A page that names its own cursor is noticed and fails the walk; a chain that comes back to an earlier
cursor over a longer way is not.  The main statement is `Listing.pagination_ends_iff`.
-/

namespace RegistryCache

/-! ## The catalog -/

namespace CatalogWalk

/-- What becomes of a catalog refresh once its pages are read, or one of them has failed. -/
def ending (cache : MetadataCache) :
    Except RegistryError (List String) → Except RegistryError CatalogRefresh
  | .ok walked => .ok (.committed (cache.catalog.commit walked).2)
  | .error e =>
    if cache.catalog.ready then .ok .keptStale else .error ⟨.catalogUnavailable, e.message⟩

/-- A walk hears its pages as a listing has them.  At each reply the cache may stand anyhow, and the
    clock show anything. -/
def hearPages (listing : Listing) : List (MetadataCache × Instant) → Going → Going
  | [], going => going
  | (cache, now) :: later, .waiting w =>
    hearPages listing later
      (w.receive cache now ((listing w.cursor).map fun page => ⟨page.1, page.2⟩)).next
  | _ :: _, .done result => .done result

variable {listing : Listing}

@[simp] theorem hearPages_done (moments : List (MetadataCache × Instant))
    (result : Except RegistryError CatalogRefresh) :
    hearPages listing moments (.done result) = .done result := by
  cases moments <;> rfl

/-- What one reply does to a walk, seen as one page of the listing. -/
theorem next_receive_listing (w : CatalogWalk) (cache : MetadataCache) (now : Instant) :
    (w.receive cache now ((listing w.cursor).map fun page => ⟨page.1, page.2⟩)).next =
      match listing.checked "Catalog" w.cursor with
      | .error e => .done (ending cache (.error e))
      | .ok (names, none) => .done (ending cache (.ok (w.gathered ++ names)))
      | .ok (names, some next) => .waiting ⟨w.started, some next, w.gathered ++ names⟩ := by
  unfold receive Listing.checked
  cases listing w.cursor with
  | error e => rfl
  | ok found =>
    obtain ⟨names, next⟩ := found
    dsimp only [Except.map, bind, Except.bind]
    rcases nextCursor w.cursor next "Catalog" with e | - | cursor <;> rfl

/-- A walk is done when a reader of the listing is, and with what the reader has then. -/
theorem hearPages_waiting (listing : Listing) (w : CatalogWalk)
    (moments : List (MetadataCache × Instant)) :
    (∀ result, listing.walkFrom "Catalog" moments.length w.cursor = some result →
      ∃ moment ∈ moments, hearPages listing moments (.waiting w) =
        .done (ending moment.1 (result.map (w.gathered ++ ·)))) ∧
    (∀ cursor, listing.cursorFrom w.cursor moments.length = some cursor →
      ∃ w', hearPages listing moments (.waiting w) = .waiting w' ∧ w'.cursor = cursor) := by
  induction moments generalizing w with
  | nil =>
    refine ⟨?_, ?_⟩
    · intro result read
      cases read
    · intro cursor stands
      exact ⟨w, rfl, Option.some.inj stands⟩
  | cons moment later inductionHypothesis =>
    obtain ⟨cache, now⟩ := moment
    simp only [hearPages, next_receive_listing, List.length_cons, Listing.cursorFrom_succ,
      Listing.walkFrom]
    obtain ⟨e, page, last⟩ | ⟨names, page, last⟩ | ⟨names, next, page, further⟩ :=
      listing.checked_cases "Catalog" w.cursor
    · simp only [page, last, hearPages_done, Option.bind_none]
      refine ⟨?_, by simp⟩
      rintro result ⟨⟩
      exact ⟨(cache, now), List.mem_cons_self, rfl⟩
    · simp only [page, last, hearPages_done, Option.bind_none]
      refine ⟨?_, by simp⟩
      rintro result ⟨⟩
      exact ⟨(cache, now), List.mem_cons_self, rfl⟩
    · simp only [page, further, Option.bind_some]
      obtain ⟨done, going⟩ := inductionHypothesis ⟨w.started, some next, w.gathered ++ names⟩
      refine ⟨?_, going⟩
      intro result read
      obtain ⟨rest, readRest, rfl⟩ := Option.map_eq_some_iff.mp read
      obtain ⟨moment, member, ended⟩ := done rest readRest
      refine ⟨moment, List.mem_cons_of_mem _ member, ?_⟩
      rw [ended]
      cases rest with
      | error e => rfl
      | ok more => simp [Except.map]

end CatalogWalk

/-! ## The tags of a repository -/

namespace RegistryClient

open Session

variable {c : RegistryClient} {repository : String} {listing : Listing}

/-- A session that answers the next so many requests for pages, from a cursor on, as a listing has
    them. -/
def Serves (c : RegistryClient) (repository : String) (listing : Listing) :
    Nat → Option String → Session → Prop
  | 0, _, _ => True
  | n + 1, cursor, s =>
    ((c.tagPage repository cursor).run s).1 = listing.checked "Tag" cursor ∧
      ∀ next ∈ listing.after cursor,
        Serves c repository listing n next ((c.tagPage repository cursor).run s).2

instance decidableServes (c : RegistryClient) (repository : String) (listing : Listing) :
    (n : Nat) → (cursor : Option String) → (s : Session) →
      Decidable (Serves c repository listing n cursor s)
  | 0, _, _ => .isTrue trivial
  | n + 1, _, _ =>
    have (next : Option String) (s : Session) :=
      decidableServes c repository listing n next s
    inferInstanceAs (Decidable (_ ∧ _))

theorem neverAdds_tagPage (cursor : Option String) : NeverAdds (c.tagPage repository cursor) := by
  unfold tagPage
  refine (neverAdds_lift _).bind fun url => neverAdds_perform.bind fun response => ?_
  split
  · exact (neverAdds_lift _).bind fun next => neverAdds_pure _
  · exact neverAdds_throw _

theorem neverAdds_tagPages (bound : Nat) (cursor : Option String) :
    NeverAdds (c.tagPages repository bound cursor) := by
  induction bound generalizing cursor with
  | zero => exact neverAdds_throw _
  | succ bound inductionHypothesis =>
    refine (neverAdds_tagPage cursor).bind fun page => ?_
    obtain ⟨tags, next⟩ := page
    cases next with
    | none => exact neverAdds_pure _
    | some next => exact (inductionHypothesis (some next)).bind fun more => neverAdds_pure _

/-- Pages that a session serves are read as a reader of the listing reads them. -/
theorem run_tagPages_of_serves {n : Nat} {cursor : Option String} {s : Session}
    (serves : Serves c repository listing n cursor s) {result : Except RegistryError (List String)}
    (read : listing.walkFrom "Tag" n cursor = some result) {bound : Nat} (enough : n ≤ bound) :
    ((c.tagPages repository bound cursor).run s).1 = result := by
  induction n generalizing cursor s bound result with
  | zero => cases read
  | succ n inductionHypothesis =>
    obtain ⟨bound, rfl⟩ := Nat.exists_eq_succ_of_ne_zero (Nat.ne_zero_of_lt enough)
    obtain ⟨served, serves⟩ := serves
    rcases run : (c.tagPage repository cursor).run s with ⟨answer, s'⟩
    rw [run] at served serves
    dsimp only at served serves
    subst served
    rw [Listing.walkFrom] at read
    rw [run_tagPages_succ, run]
    obtain ⟨e, page, last⟩ | ⟨names, page, last⟩ | ⟨names, next, page, further⟩ :=
      listing.checked_cases "Tag" cursor
    · rw [page] at read ⊢
      cases read
      rfl
    · rw [page] at read ⊢
      cases read
      rfl
    · rw [page] at read ⊢
      obtain ⟨rest, readRest, rfl⟩ := Option.map_eq_some_iff.mp read
      have same := inductionHypothesis (serves (some next) further) readRest
        (Nat.le_of_succ_le_succ enough)
      dsimp only
      rcases after : (c.tagPages repository bound (some next)).run s' with ⟨e | more, s''⟩ <;>
      · rw [after] at same
        cases same
        rfl

/-- As long as a reader of the listing is not done, each page has used up a reply. -/
theorem left_tagPages_of_serves {n : Nat} {cursor : Option String} {s : Session}
    (serves : Serves c repository listing n cursor s) (going : listing.walkFrom "Tag" n cursor = none)
    {bound : Nat} (enough : n ≤ bound) :
    ((c.tagPages repository bound cursor).run s).2.left + n ≤ s.left := by
  induction n generalizing cursor s bound with
  | zero => exact neverAdds_tagPages bound cursor s
  | succ n inductionHypothesis =>
    obtain ⟨bound, rfl⟩ := Nat.exists_eq_succ_of_ne_zero (Nat.ne_zero_of_lt enough)
    obtain ⟨served, serves⟩ := serves
    rcases run : (c.tagPage repository cursor).run s with ⟨answer, s'⟩
    rw [run] at served serves
    dsimp only at served serves
    subst served
    rw [Listing.walkFrom] at going
    obtain ⟨e, page, last⟩ | ⟨names, page, last⟩ | ⟨names, next, page, further⟩ :=
      listing.checked_cases "Tag" cursor
    · simp [page] at going
    · simp [page] at going
    · rw [page] at going run
      -- one reply for this page, and one for each that follows
      have spent := c.spends_tagPage repository cursor s _ s' run trivial
      have fewer := inductionHypothesis (serves (some next) further) (Option.map_eq_none_iff.mp going)
        (Nat.le_of_succ_le_succ enough)
      rw [run_tagPages_succ, run]
      dsimp only
      rcases after : (c.tagPages repository bound (some next)).run s' with ⟨e | more, s''⟩ <;>
      · rw [after] at fewer
        change s''.left + (n + 1) ≤ s.left
        have rest : s''.left + n ≤ s'.left := fewer
        omega

/-- What reading all tags comes to, whatever bound above the number of replies the pages are read
    with. -/
theorem run_tagList (c : RegistryClient) (repository : String) {s : Session} {bound : Nat}
    (large : s.left < bound) :
    ((c.tagList repository).run s).1 = ((c.tagPages repository bound none).run s).1 ∧
      ((c.tagList repository).run s).2.left = ((c.tagPages repository bound none).run s).2.left := by
  rw [← c.run_tagPages_eq repository none s (Nat.lt_succ_self s.left) large]
  have got : (get : Exchange Session).run s = (.ok s, s) := rfl
  rw [tagList, run_bind, got]
  dsimp only
  rw [run_bind, left]
  rcases (c.tagPages repository (s.transport.replies.length + 1) none).run s with
    ⟨e | tags, s'⟩ <;>
  exact ⟨rfl, rfl⟩

end RegistryClient

/-! ## Whether walks end -/

namespace Listing

variable {listing : Listing}

theorem tagList_of_serves {c : RegistryClient} {repository : String} {s : Session} {n : Nat}
    (serves : c.Serves repository listing n none s) :
    (listing.cursorAt n = none → ∃ result, listing.walkFrom "Tag" n none = some result ∧
      ((c.tagList repository).run s).1 = result) ∧
    (∀ cursor, listing.cursorAt n = some cursor →
      ((c.tagList repository).run s).2.left + n ≤ s.left) := by
  -- any bound will do that covers both the replies and the pages
  have large : s.left < s.left + 1 + n := by omega
  obtain ⟨outcome, used⟩ := RegistryClient.run_tagList c repository large
  rw [outcome, used]
  constructor
  · intro done
    cases read : listing.walkFrom "Tag" n none with
    | none => exact absurd done (walkFrom_eq_none_iff.mp read)
    | some result =>
      exact ⟨result, rfl, RegistryClient.run_tagPages_of_serves serves read (Nat.le_add_left n _)⟩
  · intro cursor stands
    have going : listing.walkFrom "Tag" n none = none := by
      rw [walkFrom_eq_none_iff]
      intro done
      rw [cursorAt, done] at stands
      cases stands
    exact RegistryClient.left_tagPages_of_serves serves going (Nat.le_add_left n _)

/-- Whether pagination ends.  Over a listing of finitely many pages, with any links between them:

    * the cursors come to an end if and only if none of them is come to twice; a page that names the
      very cursor it was asked for with is such an end;
    * if they do, no more pages are asked for than there are, and one more;
    * a walk of the catalog is done exactly when the cursors are, with the names of all pages or with
      the failure that a reader of the listing meets, and waits for the page at the next cursor
      otherwise;
    * so is the reading of the tags of a repository, by any session that serves these pages; as long
      as the cursors are not at their end, each page has cost it a reply. -/
theorem pagination_ends_iff {pages : Finset (Option String)}
    (finite : ∀ cursor page, listing cursor = .ok page → cursor ∈ pages) :
    ((∃ n, listing.cursorAt n = none) ↔
      ∀ i j, i < j → listing.cursorAt j ≠ none → listing.cursorAt i ≠ listing.cursorAt j) ∧
    ((∃ n, listing.cursorAt n = none) →
      ∀ n, listing.cursorAt n ≠ none → n ≤ pages.card) ∧
    (∀ cache now moments,
      (listing.cursorAt moments.length = none →
        ∃ result, listing.walkFrom "Catalog" moments.length none = some result ∧
          ∃ moment ∈ moments,
            CatalogWalk.hearPages listing moments (CatalogWalk.begin cache now).next =
              .done (CatalogWalk.ending moment.1 result)) ∧
      (∀ cursor, listing.cursorAt moments.length = some cursor →
        ∃ w, CatalogWalk.hearPages listing moments (CatalogWalk.begin cache now).next = .waiting w ∧
          w.cursor = cursor)) ∧
    (∀ (c : RegistryClient) (repository : String) (s : Session) (n : Nat),
      c.Serves repository listing n none s →
        (listing.cursorAt n = none → ∃ result, listing.walkFrom "Tag" n none = some result ∧
          ((c.tagList repository).run s).1 = result) ∧
        (∀ cursor, listing.cursorAt n = some cursor →
          ((c.tagList repository).run s).2.left + n ≤ s.left)) := by
  have ends : (∃ n, listing.cursorFrom none n = none) ↔ _ := ends_iff finite
  refine ⟨ends, ?_, ?_, ?_⟩
  · intro done n going
    exact le_card_of_distinct finite (ends.mp done) going
  · intro cache now moments
    obtain ⟨done, going⟩ := CatalogWalk.hearPages_waiting listing ⟨now, none, []⟩ moments
    refine ⟨?_, going⟩
    intro finished
    cases read : listing.walkFrom "Catalog" moments.length none with
    | none => exact absurd finished (walkFrom_eq_none_iff.mp read)
    | some result =>
      obtain ⟨moment, member, ended⟩ := done result read
      refine ⟨result, rfl, moment, member, ?_⟩
      rw [CatalogWalk.next_begin, ended]
      cases result <;> rfl
  · intro c repository s n serves
    exact tagList_of_serves serves

def threePages : Listing
  | none => .ok (["a"], some "/2")
  | some "/2" => .ok (["b"], some "/3")
  | some "/3" => .ok (["c"], none)
  | some _ => .error ⟨.notFound, "page"⟩

def plainClient : RegistryClient :=
  ⟨"http://r", ⟨"http".toList, some ⟨[], none, .domain ['r'], none⟩, .segments [[]], none, none⟩,
    ⟨none, none⟩, 100⟩

def threeReplies : Session :=
  let page (headers : List (String × List UInt8)) (body : String) : Reply :=
    .response ⟨⟨200⟩, headers, Text.Utf8.encode body.toList, true⟩
  let link (target : String) := [("Link", Text.Utf8.encode target.toList)]
  .start ⟨true, [page (link "</2>; rel=\"next\"") "[[\"a\"]]",
    page (link "</3>; rel=\"next\"") "[[\"b\"]]", page [] "[[\"c\"]]"], [], [], false⟩

/-- Three pages in a row: both walks end with the names of all of them. -/
theorem pagination_ends_iff_three_pages :
    (∀ cursor page, threePages cursor = .ok page →
      cursor ∈ ({none, some "/2", some "/3"} : Finset (Option String))) ∧
    plainClient.Serves "app" threePages 3 none threeReplies ∧
    ((plainClient.tagList "app").run threeReplies).1 = .ok ["a", "b", "c"] ∧
    ∃ moment : MetadataCache × Instant,
      CatalogWalk.hearPages threePages (List.replicate 3 (.fresh .standard, 0))
        (CatalogWalk.begin (.fresh .standard) 0).next =
          .done (CatalogWalk.ending moment.1 (.ok ["a", "b", "c"])) := by
  have finite : ∀ cursor page, threePages cursor = .ok page →
      cursor ∈ ({none, some "/2", some "/3"} : Finset (Option String)) := by
    intro cursor page found
    unfold threePages at found
    split at found
    · simp
    · simp
    · simp
    · cases found
  have serves : plainClient.Serves "app" threePages 3 none threeReplies := by decide +kernel
  have done : threePages.cursorAt 3 = none := by decide
  obtain ⟨_, _, walks, lists⟩ := pagination_ends_iff finite
  obtain ⟨tags, readTags, listed⟩ := (lists plainClient "app" threeReplies 3 serves).1 done
  obtain ⟨names, readNames, moment, _, walked⟩ :=
    (walks (.fresh .standard) 0 (List.replicate 3 (.fresh .standard, 0))).1 done
  cases readTags
  cases readNames
  exact ⟨finite, serves, listed, moment, walked⟩

/-- Two pages that name each other, after a first one. -/
def alternating : Listing
  | none => .ok (["a"], some "/2")
  | some "/2" => .ok (["b"], some "/3")
  | some "/3" => .ok (["c"], some "/2")
  | some _ => .error ⟨.notFound, "page"⟩

/-- Pages that come back to an earlier cursor, though to none that was just given: there are only
    three of them, and yet a walk waits for another one however many it has heard. -/
theorem alternating_never_ends :
    (∀ cursor page, alternating cursor = .ok page →
      cursor ∈ ({none, some "/2", some "/3"} : Finset (Option String))) ∧
    ∀ moments, ∃ w, CatalogWalk.hearPages alternating moments
      (CatalogWalk.begin (.fresh .standard) 0).next = .waiting w := by
  constructor
  · intro cursor page found
    unfold alternating at found
    split at found
    · simp
    · simp
    · simp
    · cases found
  · intro moments
    have going : alternating.cursorFrom none moments.length ≠ none :=
      endless_of_revisit (i := 1) (j := 3) (by decide) (by decide) (by decide) moments.length
    obtain ⟨cursor, stands⟩ := Option.ne_none_iff_exists'.mp going
    obtain ⟨w, waits, _⟩ := (CatalogWalk.hearPages_waiting alternating ⟨0, none, []⟩ moments).2
      cursor stands
    exact ⟨w, waits⟩

end Listing

end RegistryCache
