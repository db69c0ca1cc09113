import RegistryCache.Proofs.Addresses.AbsolutePaths
import RegistryCache.Proofs.Negotiation.Destinations
import RegistryCache.Proofs.Pagination.PageContents
import RegistryCache.Proofs.Programs.Foreground

/-! # Lists of tags, page by page

A list of tags comes in pages, each of which names the next in a header.  Pages that were served lead
from the listing of a repository to a cursor (`RegistryClient.Leads`); what becomes of the page there
decides.  If it is the last one, the tags of all pages are the result, in order.  If it fails in any way
there is no result at all, no other page is asked for, and the cache stays as it was.  The main
statement is `RegistryClient.tag_walk_all_or_nothing`.
-/

namespace RegistryCache

/-! ## Responses -/

namespace Response

variable {r : Response} {tags : List String} {cursor : String}

/-- The body is a record that lists tags, none if it says `null` or nothing of them. -/
def ListsTags (r : Response) (tags : List String) : Prop :=
  ∃ v part, r.json? = some v ∧ v.HasField "tags" part ∧ Json.HoldsTexts part tags

/-- The header names the cursor of the next page. -/
def LinksTo (r : Response) (cursor : String) : Prop :=
  ∃ header, r.header? "Link" = some header ∧ Link.Names header cursor

theorem listsTags_iff :
    r.ListsTags tags ↔ r.json?.bind (Json.listing? "tags") = some tags := by
  simp only [Option.bind_eq_some_iff, Json.listing?_eq_some_iff]
  constructor
  · rintro ⟨v, part, body, has, holds⟩
    exact ⟨v, body, part, has, holds⟩
  · rintro ⟨v, body, part, has, holds⟩
    exact ⟨v, part, body, has, holds⟩

theorem linksTo_iff : r.LinksTo cursor ↔ RegistryClient.nextLink? r = some cursor := by
  simp only [LinksTo, RegistryClient.nextLink?, Option.bind_eq_some_iff, Link.next?_eq_some_iff]

theorem nextLink?_eq_none (last : ∀ next, ¬ r.LinksTo next) : RegistryClient.nextLink? r = none := by
  rw [Option.eq_none_iff_forall_ne_some]
  exact fun next named => last next (linksTo_iff.mpr named)

end Response

/-- A cursor as registries write them: an absolute path of printable characters without blanks, commas
    and semicolons.  The slash in front is the only one there, in the sense of `Url.IsAbsolutePath`. -/
structure IsPathCursor (cursor : String) : Prop where
  slash : cursor.toList.head? = some '/'
  single : (cursor.toList.takeWhile (Url.isSlash true)).length = 1
  printable : ∀ c ∈ cursor.toList, 0x20 < c.toNat ∧ c.toNat < 0x7F ∧ c ≠ ',' ∧ c ≠ ';'

namespace IsPathCursor

variable {cursor : String}

theorem isAbsolutePath (path : IsPathCursor cursor) : Url.IsAbsolutePath cursor.toList where
  slash := path.slash
  single := path.single
  solid := by
    intro c member
    have above := (path.printable c member).1
    simpa [isDust] using above

/-- The way in which registries write such a cursor into a header. -/
theorem names (path : IsPathCursor cursor) : Link.Names s!"<{cursor}>; rel=\"next\"" cursor := by
  have solid (mark : Char) (other : mark = ',' ∨ mark = ';') : mark ∉ cursor.toList := by
    intro member
    obtain ⟨-, -, comma, semicolon⟩ := path.printable mark member
    exact other.elim comma semicolon
  exact Link.names_header ⟨solid ',' (.inl rfl), solid ';' (.inr rfl)⟩

end IsPathCursor

namespace RegistryClient

open Session

/-! ## Pages that were served -/

/-- The address of a page of tags: that of the listing, or the one that a cursor has at the address of
    the registry. -/
def pageAddress (c : RegistryClient) (repository : String) : Option String → Except UrlFault Url
  | none => Url.parse s!"{c.address}/v2/{repository}/tags/list"
  | some cursor => c.base.join cursor

/-- The negotiation of the page at a cursor, for which there is an address. -/
def Meets (c : RegistryClient) (repository : String) (s : Session) (cursor : Option String)
    (n : Negotiation) : Prop :=
  ∃ url, c.pageAddress repository cursor = .ok url ∧
    n = s.negotiation c.credentials (tagsInquiry repository url)

/-- The page is there, after an authentication if need be. -/
structure Delivers (n : Negotiation) (response : Response) (tags : List String) : Prop where
  answered : n.answer = .ok response
  success : response.status.isSuccess = true
  lists : response.ListsTags tags

/-- The page at a cursor is not there: there is no answer or no token, the answer is no success, it
    cannot be read as a page of tags, or it names the cursor that it was asked for with. -/
inductive Fails (cursor : Option String) (n : Negotiation) : Prop
  | unanswered {e : RegistryError} (lost : n.answer = .error e)
  | refused {response : Response} (answered : n.answer = .ok response)
      (status : response.status.isSuccess = false)
  | unreadable {response : Response} (answered : n.answer = .ok response)
      (alien : ∀ tags, ¬ response.ListsTags tags)
  | standstill {response : Response} {next : String} (answered : n.answer = .ok response)
      (names : response.LinksTo next) (same : cursor = some next)

/-- The page at a cursor is there, and it names no other. -/
def Finishes (c : RegistryClient) (repository : String) (s : Session) (cursor : Option String)
    (n : Negotiation) (tags : List String) : Prop :=
  ∃ response, c.Meets repository s cursor n ∧ Delivers n response tags ∧
    ∀ next, ¬ response.LinksTo next

/-- The pages end with a failure, and these are the negotiations for the page that is not there: none
    if there is no address for it. -/
inductive Stops (c : RegistryClient) (repository : String) (s : Session) (cursor : Option String) :
    List Negotiation → Prop
  | homeless {fault : UrlFault} (nowhere : c.pageAddress repository cursor = .error fault) :
      Stops c repository s cursor []
  | failed {n : Negotiation} (meets : c.Meets repository s cursor n) (fails : Fails cursor n) :
      Stops c repository s cursor [n]

/-- A page that was served and named another one. -/
structure ServedPage where
  cursor : Option String
  negotiation : Negotiation
  tags : List String
  next : String

/-- Pages that were served one after the other, from the page at one cursor to the one at another. -/
inductive Leads (c : RegistryClient) (repository : String) :
    Session → Option String → List ServedPage → Session → Option String → Prop
  | here {s : Session} {cursor : Option String} : Leads c repository s cursor [] s cursor
  | further {s s' : Session} {cursor cursor' : Option String} {n : Negotiation} {response : Response}
      {tags : List String} {next : String} {later : List ServedPage}
      (meets : c.Meets repository s cursor n) (delivers : Delivers n response tags)
      (links : response.LinksTo next) (moves : cursor ≠ some next)
      (rest : Leads c repository (s.past n) (some next) later s' cursor') :
      Leads c repository s cursor (⟨cursor, n, tags, next⟩ :: later) s' cursor'

variable {configured : String} {credentials : Credentials} {pageSize : UInt64} {c : RegistryClient}
  {repository : String} {s s' s₁ : Session} {cursor cursor' : Option String} {n : Negotiation}
  {response : Response} {tags : List String} {pages : List ServedPage}

/-! ## One page -/

theorem tagsUrl_eq (c : RegistryClient) (repository : String) (cursor : Option String) :
    c.tagsUrl repository cursor = checked (c.pageAddress repository cursor) := by
  cases cursor with
  | some cursor => rfl
  | none =>
    have text : c.address ++ "/v2/" ++ s!"{repository}/tags/list" =
        s!"{c.address}/v2/{repository}/tags/list" := String.toList_inj.mp (by simp [toString])
    change checked (Url.parse (c.address ++ "/v2/" ++ s!"{repository}/tags/list")) = _
    rw [text]
    rfl

theorem Meets.address (meets : c.Meets repository s cursor n) :
    c.pageAddress repository cursor = .ok n.inquiry.url := by
  obtain ⟨url, address, rfl⟩ := meets
  rw [inquiry_negotiation]
  exact address

/-- The first page is at the registry.  If its address has neither a query nor a fragment, the page is
    below it, with nothing else changed exactly if the name of the repository is plain. -/
theorem pageAddress_none (made : make configured credentials pageSize = .ok c)
    (web : Url.isWeb c.base.scheme) {url : Url}
    (found : c.pageAddress repository none = .ok url) :
    url.origin = c.base.origin ∧
      (c.base.query = none → c.base.fragment = none →
        ∃ front, Url.parse s!"{c.address}/v2/" = .ok front ∧
          (url.Continues s!"{repository}/tags/list".toList front ↔
            Url.Plain s!"{repository}/tags/list".toList)) := by
  have endpoint : c.endpoint s!"{repository}/tags/list" = .ok url := by
    change c.tagsUrl repository none = .ok url
    rw [tagsUrl_eq, found]
    rfl
  refine ⟨origin_endpoint made web endpoint, fun query fragment => ?_⟩
  obtain ⟨front, first, -, -, -, -, further⟩ :=
    Url.continues_iff_plain (make_eq_ok made).2 web query fragment
      (List.all_eq_true.mp (by decide)) (endpoint_eq_ok.mp endpoint)
  have text : s!"{c.address}/v2/" = c.address ++ "/" ++ ("v2" ++ "/") :=
    String.toList_inj.mp (by simp [toString])
  exact ⟨front, text ▸ first, further⟩

/-- The page at a path is at the registry, and what is asked for there is the path. -/
theorem pageAddress_path (made : make configured credentials pageSize = .ok c)
    (web : Url.isWeb c.base.scheme) {path : String} (cursor : IsPathCursor path) :
    ∃ url, c.pageAddress repository (some path) = .ok url ∧ url.scheme = c.base.scheme ∧
      url.authority = c.base.authority ∧ url.AsksFor path.toList := by
  obtain ⟨place, segments⟩ := Url.path_parse (make_eq_ok made).2 web
  exact ⟨c.base.atRoot path.toList, Url.join_absolute web segments cursor.isAbsolutePath, rfl, rfl,
    Url.asksFor_atRoot web cursor.isAbsolutePath⟩

/-- All requests for a page are made to its address, whatever becomes of the credentials there. -/
theorem Meets.request {url : Url} (meets : c.Meets repository s cursor n)
    (address : c.pageAddress repository cursor = .ok url) {request : Request}
    {outcome : Except TransportFault Response} (tried : .sent request outcome ∈ n.tries) :
    request.url.origin = url.origin ∧
      ∀ text, url.AsksFor text → request.url.AsksFor text := by
  have own : n.inquiry.url = url := Except.ok.inj (meets.address.symm.trans address)
  obtain ⟨_, _, rfl⟩ := meets
  have split := url_of_tries (s.orderly_negotiation c.credentials _) tried
  rw [own] at split
  rw [split]
  refine ⟨origin_splitCredentials url, fun text asks => ?_⟩
  -- whatever goes from the address into a header goes from its authority
  obtain ⟨authority, same, -⟩ := splitCredentials_eq url
  rw [same]
  exact ⟨asks.path, asks.query, asks.verbatim⟩

/-- A page that is met is asked for with its negotiation and nothing else, which decides. -/
theorem Meets.run (meets : c.Meets repository s cursor n) (like : s₁.Like s) :
    c.negotiated s₁ ((c.tagsUrl repository cursor).map (tagsInquiry repository)) = [n] ∧
      ((c.tagPage repository cursor).run s₁).1 = n.conclusion.bind (tagsIn cursor) ∧
      ((c.tagPage repository cursor).run s₁).2.Like (s.past n) := by
  obtain ⟨url, address, rfl⟩ := meets
  have found : c.tagsUrl repository cursor = .ok url := by
    rw [tagsUrl_eq, address]
    rfl
  obtain ⟨result, after⟩ := (c.asks_tagPage repository cursor s₁).run
  rw [found] at result after ⊢
  dsimp only [Except.map, Except.bind, negotiated] at result after ⊢
  rw [like.negotiation] at result after ⊢
  exact ⟨rfl, result, after.trans (like.past _)⟩

/-- Only an answer that is a success is read. -/
theorem conclusion_bind {read : Response → Except RegistryError α} (answered : n.answer = .ok response) :
    n.conclusion.bind read = if response.status.isSuccess then read response
      else .error (response.status.failure response.errorText n.inquiry.operation) := by
  rw [Negotiation.conclusion, answered]
  dsimp only [Except.bind]
  rw [Response.checked]
  cases response.status.isSuccess <;> rfl

theorem Delivers.result (delivers : Delivers n response tags) (cursor : Option String) :
    n.conclusion.bind (tagsIn cursor) =
      (nextCursor cursor (nextLink? response) "Tag").map fun next => (tags, next) := by
  rw [conclusion_bind delivers.answered, if_pos delivers.success, tagsIn,
    Response.listsTags_iff.mp delivers.lists]

/-- A page that fails has no result. -/
theorem Fails.result (fails : Fails cursor n) :
    ∃ e, n.conclusion.bind (tagsIn cursor) = .error e := by
  cases fails with
  | unanswered lost => exact ⟨_, by rw [Negotiation.conclusion, lost]; rfl⟩
  | refused answered status =>
    rw [conclusion_bind answered, if_neg (by simp [status])]
    exact ⟨_, rfl⟩
  | @unreadable response answered alien =>
    have unread : response.json?.bind (Json.listing? "tags") = none := by
      cases read : response.json?.bind (Json.listing? "tags") with
      | none => rfl
      | some tags => exact absurd (Response.listsTags_iff.mpr read) (alien tags)
    rw [conclusion_bind answered, tagsIn, unread]
    split <;> exact ⟨_, rfl⟩
  | @standstill response next answered names same =>
    rw [conclusion_bind answered, tagsIn]
    split
    · cases response.json?.bind (Json.listing? "tags") with
      | none => exact ⟨_, rfl⟩
      | some tags =>
        simp only [nextCursor, Response.linksTo_iff.mp names, if_pos same]
        exact ⟨_, rfl⟩
    · exact ⟨_, rfl⟩

/-! ## Reading pages -/

/-- Reading pages from a cursor on takes these negotiations, one for each page, and has this result. -/
structure Reads (c : RegistryClient) (repository : String) (bound : Nat) (cursor : Option String)
    (s : Session) (ns : List Negotiation) (result : Except RegistryError (List String)) : Prop where
  negotiations : c.tagNegotiations repository bound cursor s = ns
  result : ((c.tagPages repository bound cursor).run s).1 = result

variable {bound : Nat} {ns : List Negotiation} {result : Except RegistryError (List String)}

/-- What is known after one page is the result. -/
theorem Reads.of_page
    (asked : c.negotiated s₁ ((c.tagsUrl repository cursor).map (tagsInquiry repository)) = ns)
    (page : ((c.tagPage repository cursor).run s₁).1 = result.map fun tags => (tags, none)) :
    c.Reads repository (bound + 1) cursor s₁ ns result := by
  rcases ran : (c.tagPage repository cursor).run s₁ with ⟨r, s₂⟩
  rw [ran] at page
  obtain rfl : r = result.map fun tags => (tags, none) := page
  constructor
  · rw [tagNegotiations, asked, ran]
    cases result <;> exact List.append_nil ns
  · rw [run_tagPages_succ, ran]
    cases result <;> rfl

theorem Finishes.reads (finishes : c.Finishes repository s cursor n tags) (bound : Nat)
    (like : s₁.Like s) : c.Reads repository (bound + 1) cursor s₁ [n] (.ok tags) := by
  obtain ⟨response, meets, delivers, ends⟩ := finishes
  obtain ⟨asked, page, -⟩ := meets.run like
  rw [delivers.result, Response.nextLink?_eq_none ends] at page
  exact .of_page asked page

/-- A page that is not there ends the reading with an error. -/
theorem Stops.reads (stops : c.Stops repository s cursor ns) :
    ∃ e, ∀ (s₁ : Session) (bound : Nat), s₁.Like s →
      c.Reads repository (bound + 1) cursor s₁ ns (.error e) := by
  cases stops with
  | @homeless fault nowhere =>
    have lost : c.tagsUrl repository cursor = .error ⟨.validation, fault.text⟩ := by
      rw [tagsUrl_eq, nowhere]
      rfl
    refine ⟨⟨.validation, fault.text⟩, fun s₁ bound like => ?_⟩
    obtain ⟨page, -⟩ := (c.asks_tagPage repository cursor s₁).run
    rw [lost] at page
    refine .of_page ?_ page
    rw [lost]
    rfl
  | @failed n meets fails =>
    obtain ⟨e, failed⟩ := fails.result
    refine ⟨e, fun s₁ bound like => ?_⟩
    obtain ⟨asked, page, -⟩ := meets.run like
    rw [failed] at page
    exact .of_page asked page

/-- A page that leads on has used up a reply. -/
theorem Meets.run_further {next : String} (meets : c.Meets repository s cursor n)
    (delivers : Delivers n response tags) (links : response.LinksTo next)
    (moves : cursor ≠ some next) (like : s₁.Like s) :
    ∃ s₂ : Session, (c.tagPage repository cursor).run s₁ = (.ok (tags, some next), s₂) ∧
      s₂.Like (s.past n) ∧ s₂.left < s₁.left := by
  obtain ⟨-, page, after⟩ := meets.run like
  rw [delivers.result, Response.linksTo_iff.mp links, nextCursor, if_neg moves] at page
  rcases ran : (c.tagPage repository cursor).run s₁ with ⟨r, s₂⟩
  rw [ran] at page after
  obtain rfl : r = .ok (tags, some next) := page
  exact ⟨s₂, rfl, after, c.spends_tagPage repository cursor s₁ _ s₂ ran trivial⟩

/-- A page that leads on is one negotiation, and its tags go before those of the later pages. -/
theorem Reads.further {next : String} (meets : c.Meets repository s cursor n)
    (delivers : Delivers n response tags) (links : response.LinksTo next)
    (moves : cursor ≠ some next) (like : s₁.Like s) (enough : s₁.left < bound + 1)
    (rest : ∀ s₂ : Session, s₂.Like (s.past n) → s₂.left < bound →
      c.Reads repository bound (some next) s₂ ns result) :
    c.Reads repository (bound + 1) cursor s₁ (n :: ns) (result.map (tags ++ ·)) := by
  obtain ⟨asked, -, -⟩ := meets.run like
  obtain ⟨s₂, ran, after, spent⟩ := meets.run_further delivers links moves like
  have later := rest s₂ after (by omega)
  constructor
  · rw [tagNegotiations, asked, ran]
    dsimp only
    rw [later.negotiations, List.singleton_append]
  · rw [run_tagPages_succ, ran, ← later.result]
    dsimp only
    rcases (c.tagPages repository bound (some next)).run s₂ with ⟨e | more, s₃⟩ <;> rfl

/-- Pages that were served go before what becomes of the reading behind them. -/
theorem Leads.reads (leads : c.Leads repository s cursor pages s' cursor')
    (behind : ∀ (s₁ : Session) (bound : Nat), s₁.Like s' →
      c.Reads repository (bound + 1) cursor' s₁ ns result) :
    ∀ (s₁ : Session) (bound : Nat), s₁.Like s → s₁.left < bound →
      c.Reads repository bound cursor s₁ (pages.map (·.negotiation) ++ ns)
        (result.map (pages.flatMap (·.tags) ++ ·)) := by
  -- Along the pages, not the bound: a page that leads on uses up a reply, so the bound goes down too.
  induction leads with
  | here =>
    intro s₁ bound like enough
    obtain ⟨bound, rfl⟩ := Nat.exists_eq_succ_of_ne_zero (Nat.ne_zero_of_lt enough)
    have same : result.map ([] ++ ·) = result := by cases result <;> rfl
    rw [List.map_nil, List.nil_append, List.flatMap_nil, same]
    exact behind s₁ bound like
  | @further _ _ _ _ _ _ tags _ later meets delivers links moves rest inductionHypothesis =>
    intro s₁ bound like enough
    obtain ⟨bound, rfl⟩ := Nat.exists_eq_succ_of_ne_zero (Nat.ne_zero_of_lt enough)
    have read := Reads.further meets delivers links moves like enough
      fun s₂ like left => inductionHypothesis behind s₂ bound like left
    have joined : (result.map (later.flatMap (·.tags) ++ ·)).map (tags ++ ·) =
        result.map (fun more => tags ++ later.flatMap (·.tags) ++ more) := by
      cases result <;> simp [Except.map]
    rw [joined] at read
    exact read

/-- The pages are asked for in order: the first one without a cursor, and each other one, like what
    comes behind them, with the cursor that the page before it names. -/
theorem Leads.chain (leads : c.Leads repository s cursor pages s' cursor') :
    pages.map (·.cursor) ++ [cursor'] = cursor :: pages.map (some ·.next) ∧
      ∀ page ∈ pages,
        c.pageAddress repository page.cursor = .ok page.negotiation.inquiry.url := by
  induction leads with
  | here => exact ⟨rfl, fun page member => absurd member List.not_mem_nil⟩
  | further meets delivers links moves rest inductionHypothesis =>
    obtain ⟨cursors, addresses⟩ := inductionHypothesis
    refine ⟨?_, ?_⟩
    · rw [List.map_cons, List.cons_append, cursors]
      rfl
    · intro page member
      rcases List.mem_cons.mp member with rfl | later
      · exact meets.address
      · exact addresses page later

/-! ## Whatever a registry does -/

/-- A page is not there, or it is the last one, or it leads to another cursor. -/
theorem page_cases (c : RegistryClient) (repository : String) (s : Session)
    (cursor : Option String) :
    (∃ ns, c.Stops repository s cursor ns) ∨ (∃ n tags, c.Finishes repository s cursor n tags) ∨
      ∃ n response tags next, c.Meets repository s cursor n ∧ Delivers n response tags ∧
        response.LinksTo next ∧ cursor ≠ some next := by
  cases address : c.pageAddress repository cursor with
  | error fault => exact .inl ⟨[], .homeless address⟩
  | ok url =>
    have meets : c.Meets repository s cursor (s.negotiation c.credentials (tagsInquiry repository url)) :=
      ⟨url, address, rfl⟩
    generalize s.negotiation c.credentials (tagsInquiry repository url) = n at meets
    cases answered : n.answer with
    | error e => exact .inl ⟨[n], .failed meets (.unanswered answered)⟩
    | ok response =>
      cases success : response.status.isSuccess with
      | false => exact .inl ⟨[n], .failed meets (.refused answered success)⟩
      | true =>
        by_cases listed : ∃ tags, response.ListsTags tags
        · obtain ⟨tags, lists⟩ := listed
          by_cases links : ∃ next, response.LinksTo next
          · obtain ⟨next, links⟩ := links
            by_cases same : cursor = some next
            · exact .inl ⟨[n], .failed meets (.standstill answered links same)⟩
            · exact .inr (.inr ⟨n, response, tags, next, meets, ⟨answered, success, lists⟩, links, same⟩)
          · exact .inr (.inl ⟨n, tags, response, meets, ⟨answered, success, lists⟩,
              fun next named => links ⟨next, named⟩⟩)
        · exact .inl ⟨[n], .failed meets (.unreadable answered fun tags lists => listed ⟨tags, lists⟩)⟩

/-- Pages that lead on use up replies, so they come to an end. -/
theorem exists_leads (c : RegistryClient) (repository : String) (s : Session)
    (cursor : Option String) :
    ∃ pages s' cursor', c.Leads repository s cursor pages s' cursor' ∧
      ((∃ ns, c.Stops repository s' cursor' ns) ∨
        ∃ n tags, c.Finishes repository s' cursor' n tags) := by
  induction left : s.left using Nat.strong_induction_on generalizing s cursor with
  | _ size inductionHypothesis =>
    obtain stops | finishes | ⟨n, response, tags, next, meets, delivers, links, moves⟩ :=
      c.page_cases repository s cursor
    · exact ⟨[], s, cursor, .here, .inl stops⟩
    · exact ⟨[], s, cursor, .here, .inr finishes⟩
    · obtain ⟨s₂, -, after, spent⟩ := meets.run_further delivers links moves (.refl s)
      have fewer : (s.past n).left < size := by
        rw [← after.left_eq, ← left]
        exact spent
      obtain ⟨pages, s', cursor', leads, ends⟩ := inductionHypothesis _ fewer (s.past n) (some next) rfl
      exact ⟨_, s', cursor', .further meets delivers links moves leads, ends⟩

/-! ## Fetches -/

/-- The tags of a repository are fetched: by a call with this result, whose requests are those of these
    negotiations, of which each is orderly.  The cache has the tags then, and if there are none it is as
    it was. -/
structure Fetches (c : RegistryClient) (repository : String) (bound : Nat) (w : World Session)
    (ns : List Negotiation) (result : Except RegistryError (List String)) : Prop where
  called : ((c.tagList repository).run w.registry).1 = result
  negotiations : c.negotiations w.registry (.tagList repository) = ns
  requests : ((c.tagList repository).run w.registry).2.transport.requests =
    w.registry.transport.requests ++
      w.registry.transport.arrivals (ns.flatMap Negotiation.attempts)
  orderly : ∀ n ∈ ns, n.Orderly c.credentials
  settles : World.Settles (w.perform c.registry bound (.fetchTags repository) none)
    (.fetched result.toOption) w.now
    (match result with
    | .ok tags => { w.cache with tags := w.cache.tags.insert repository tags }
    | .error _ => w.cache)
    ((c.tagList repository).run w.registry).2

theorem Reads.fetches {w : World Session}
    (reads : c.Reads repository (w.registry.left + 1) none w.registry ns result)
    (room : 0 < bound) : c.Fetches repository bound w ns result := by
  have called : ((c.tagList repository).run w.registry).1 = result :=
    (c.tagList_like_tagPages repository w.registry).1.trans reads.result
  have negotiations : c.negotiations w.registry (.tagList repository) = ns := reads.negotiations
  have course : Course c.credentials w.registry ns ((c.tagList repository).run w.registry).2 :=
    negotiations ▸ c.course_call w.registry (.tagList repository)
  have settles := World.settles_fetchTags c room repository w
  rw [called] at settles
  refine ⟨called, negotiations, course.carries.requests, fun n => orderly_of_course course, ?_⟩
  cases result <;> exact settles

/-- The tags of a repository are those of all its pages or none.  The first page is at the registry.  A
    cursor that is a path is read from the header as it was written there, and all requests for its page
    go to the registry, with the path and the query of the cursor.  Pages that lead on are asked for once
    and in order, each with the cursor that the one before it names.  If the page behind them is the last
    one, the result is the tags of all pages.  If it fails there is no result, no other page is asked for,
    and the cache is as it was.  There is no third possibility.  What is there or not is told by replies,
    so a redirection that is followed underneath is no page that fails (`Reply`). -/
theorem tag_walk_all_or_nothing (c : RegistryClient) (repository : String) :
    (∀ address credentials pageSize, make address credentials pageSize = .ok c →
      Url.isWeb c.base.scheme →
      (∀ url, c.pageAddress repository none = .ok url → url.origin = c.base.origin ∧
        (c.base.query = none → c.base.fragment = none →
          ∃ front, Url.parse s!"{c.address}/v2/" = .ok front ∧
            (url.Continues s!"{repository}/tags/list".toList front ↔
              Url.Plain s!"{repository}/tags/list".toList))) ∧
      ∀ cursor, IsPathCursor cursor →
        Link.Names s!"<{cursor}>; rel=\"next\"" cursor ∧
        (∃ url, c.pageAddress repository (some cursor) = .ok url ∧ url.origin = c.base.origin ∧
          url.scheme = c.base.scheme ∧ url.authority = c.base.authority ∧
          url.AsksFor cursor.toList) ∧
        ∀ s n request outcome, c.Meets repository s (some cursor) n →
          .sent request outcome ∈ n.tries →
          request.url.origin = c.base.origin ∧ request.url.AsksFor cursor.toList) ∧
    (∀ (w : World Session) (bound : Nat) (pages : List ServedPage) (s : Session)
        (cursor : Option String), 0 < bound → c.Leads repository w.registry none pages s cursor →
      (pages.map (·.cursor) ++ [cursor] = none :: pages.map (some ·.next) ∧
        ∀ page ∈ pages,
          c.pageAddress repository page.cursor = .ok page.negotiation.inquiry.url) ∧
      (∀ n tags, c.Finishes repository s cursor n tags →
        c.Fetches repository bound w (pages.map (·.negotiation) ++ [n])
          (.ok (pages.flatMap (·.tags) ++ tags))) ∧
      ∀ ns, c.Stops repository s cursor ns →
        ∃ e, c.Fetches repository bound w (pages.map (·.negotiation) ++ ns) (.error e)) ∧
    ∀ w : World Session, ∃ pages s cursor, c.Leads repository w.registry none pages s cursor ∧
      ((∃ ns, c.Stops repository s cursor ns) ∨ ∃ n tags, c.Finishes repository s cursor n tags) := by
  refine ⟨?_, ?_, fun w => c.exists_leads repository w.registry none⟩
  -- where the pages are
  · intro address credentials pageSize made web
    refine ⟨fun url found => pageAddress_none made web found, fun cursor path => ⟨path.names, ?_⟩⟩
    obtain ⟨url, found, scheme, authority, asks⟩ := pageAddress_path made web path
    have origin : url.origin = c.base.origin := Url.origin_congr ⟨scheme, authority⟩
    refine ⟨⟨url, found, origin, scheme, authority, asks⟩, ?_⟩
    intro s n request outcome meets tried
    obtain ⟨same, also⟩ := meets.request found tried
    exact ⟨same.trans origin, also _ asks⟩
  -- one fetch
  · intro w bound pages s cursor room leads
    have enough : w.registry.left < w.registry.left + 1 := Nat.lt_succ_self _
    refine ⟨leads.chain, ?_, ?_⟩
    · intro n tags finishes
      have reads := leads.reads (fun s₁ bound like => finishes.reads bound like) _ _ (.refl _) enough
      exact reads.fetches room
    · intro ns stops
      obtain ⟨e, behind⟩ := stops.reads
      exact ⟨e, (leads.reads behind _ _ (.refl _) enough).fetches room⟩

/-- A page of tags that names another one, and one that names none. -/
def leadingPage (next text : String) : Response :=
  ⟨⟨200⟩, [("Link", Text.Utf8.encode s!"<{next}>; rel=\"next\"".toList)],
    Text.Utf8.encode text.toList, true⟩

def lastPage (served : Bool) : Response :=
  if served then ⟨⟨200⟩, [], Text.Utf8.encode "\x7b\"tags\":[\"c\"]\x7d".toList, true⟩
  else ⟨⟨500⟩, [], [], true⟩

/-- Three pages for somebody with a token: the second one says `null`, and the third one is served or
    not.  The cache holds tags from before. -/
def threePages (served : Bool) : World Session :=
  let cache := MetadataCache.fresh .standard
  { World.fresh .standard (.start ⟨true, [wanting, holding "[\"one\",null]",
      .response (leadingPage "/2" "\x7b\"tags\":[\"a\",\"b\"]\x7d"),
      .response (leadingPage "/3?n=2" "\x7b\"tags\":null\x7d"),
      .response (lastPage served)], [], [], false⟩) with
    cache := { cache with tags := cache.tags.insert "app" ["old"] } }

/-- An address at the registry of `namedClient`. -/
def atRegistry (path : List String) (query : Option String) : Url :=
  ⟨Url.http, some ⟨[], none, .domain ['r'], none⟩, .segments (path.map String.toList),
    query.map String.toList, none⟩

theorem leads_threePages (served : Bool) :
    ∃ n₁ n₂ n₃ s, namedClient.Leads "app" (threePages served).registry none
        [⟨none, n₁, ["a", "b"], "/2"⟩, ⟨some "/2", n₂, [], "/3?n=2"⟩] s (some "/3?n=2") ∧
      namedClient.Meets "app" s (some "/3?n=2") n₃ ∧ n₃.answer = .ok (lastPage served) := by
  -- what is left open here is a fact about one page, and can be computed
  refine ⟨_, _, _, _, .further ⟨atRegistry ["v2", "app", "tags", "list"] none, ?_, rfl⟩
    ⟨(?_ : _ = Except.ok (leadingPage "/2" "\x7b\"tags\":[\"a\",\"b\"]\x7d")), ?_,
      Response.listsTags_iff.mpr ?_⟩
    (Response.linksTo_iff.mpr ?_) nofun
    (.further ⟨atRegistry ["2"] none, ?_, rfl⟩
      ⟨(?_ : _ = Except.ok (leadingPage "/3?n=2" "\x7b\"tags\":null\x7d")), ?_,
        Response.listsTags_iff.mpr ?_⟩
      (Response.linksTo_iff.mpr ?_) (by decide) .here),
    ⟨atRegistry ["3"] (some "n=2"), ?_, rfl⟩, ?_⟩ <;>
  cases served <;> decide +kernel

/-- The third page decides between three pages and none, after an authentication for the first one.  It
    is asked for by the path and the query that the second one names. -/
theorem tag_walk_all_or_nothing_three_pages :
    (make "http://r/" ⟨some "u", some "p"⟩ 100 = .ok namedClient ∧ IsPathCursor "/3?n=2" ∧
      (∃ url, namedClient.pageAddress "app" (some "/3?n=2") = .ok url ∧
        url.origin = namedClient.base.origin ∧ url.scheme = namedClient.base.scheme ∧
        url.authority = namedClient.base.authority ∧ url.target = "/3?n=2".toList) ∧
      ∀ s n request outcome, namedClient.Meets "app" s (some "/3?n=2") n →
        .sent request outcome ∈ n.tries →
        request.url.origin = namedClient.base.origin ∧ request.url.target = "/3?n=2".toList) ∧
    ((∃ ns, namedClient.Fetches "app" 1 (threePages true) ns (.ok ["a", "b", "c"])) ∧
      ((namedClient.tagList "app").run (threePages true).registry).2.transport.requests.map
        (·.url.text) = ["http://r/v2/app/tags/list", "http://t/?", "http://r/v2/app/tags/list",
          "http://r/2", "http://r/3?n=2"]) ∧
    ∃ ns e, namedClient.Fetches "app" 1 (threePages false) ns (.error e) := by
  obtain ⟨addresses, walks, -⟩ := tag_walk_all_or_nothing namedClient "app"
  have made : make "http://r/" ⟨some "u", some "p"⟩ 100 = .ok namedClient := by decide +kernel
  have printable : "/3?n=2".toList.all (fun c =>
      decide (0x20 < c.toNat ∧ c.toNat < 0x7F ∧ c ≠ ',' ∧ c ≠ ';')) = true := by decide
  have path : IsPathCursor "/3?n=2" :=
    ⟨by decide, by decide, fun c member => of_decide_eq_true (List.all_eq_true.mp printable c member)⟩
  have plain : Url.IsPlainTarget "/3?n=2".toList := by decide +kernel
  obtain ⟨-, cursors⟩ := addresses _ _ _ made (.inl rfl)
  obtain ⟨-, ⟨url, found, origin, scheme, authority, asks⟩, requests⟩ := cursors _ path
  refine ⟨⟨made, path, ⟨url, found, origin, scheme, authority, asks.verbatim plain⟩, ?_⟩,
    ⟨?_, by decide +kernel⟩, ?_⟩
  · intro s n request outcome meets tried
    obtain ⟨same, also⟩ := requests s n request outcome meets tried
    exact ⟨same, also.verbatim plain⟩
  · obtain ⟨n₁, n₂, n₃, s, leads, meets, answered⟩ := leads_threePages true
    obtain ⟨-, complete, -⟩ := walks (threePages true) 1 _ s _ Nat.one_pos leads
    have last : nextLink? (lastPage true) = none := by decide +kernel
    refine ⟨_, complete n₃ ["c"] ⟨lastPage true, meets,
      ⟨answered, rfl, Response.listsTags_iff.mpr (by decide +kernel)⟩, fun next names => ?_⟩⟩
    rw [Response.linksTo_iff, last] at names
    cases names
  · obtain ⟨n₁, n₂, n₃, s, leads, meets, answered⟩ := leads_threePages false
    obtain ⟨-, -, failing⟩ := walks (threePages false) 1 _ s _ Nat.one_pos leads
    exact ⟨_, failing [n₃] (.failed meets (.refused answered rfl))⟩

end RegistryClient

end RegistryCache
