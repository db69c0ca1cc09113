import RegistryCache.Proofs.Negotiation.Runs

/-! # Calls negotiate

Each call of a client is a number of negotiations: one for most calls, one for each page for a list of
tags.  `RegistryClient.negotiations` lists them, and `RegistryClient.history` those of calls made one
after the other.  A `Session.Course` ties them to the sessions between them, and every call runs such a
course (`RegistryClient.course_call`).
-/

namespace RegistryCache

/-! ## Courses -/

namespace Session

variable {credentials : Credentials} {s s₁ s' : Session}

/-- The same session, except for what was reported. -/
def Like (s s' : Session) : Prop := s.transport = s'.transport ∧ s.tokens = s'.tokens

namespace Like

theorem refl (s : Session) : s.Like s := ⟨rfl, rfl⟩

theorem symm (like : s.Like s') : s'.Like s := ⟨like.1.symm, like.2.symm⟩

theorem trans (first : s.Like s₁) (second : s₁.Like s') : s.Like s' :=
  ⟨first.1.trans second.1, first.2.trans second.2⟩

theorem negotiation (like : s.Like s') (q : Inquiry) :
    s.negotiation credentials q = s'.negotiation credentials q := by
  obtain ⟨transport, tokens, reported⟩ := s
  obtain ⟨transport', tokens', reported'⟩ := s'
  obtain ⟨rfl, rfl⟩ : transport = transport' ∧ tokens = tokens' := like
  rfl

theorem past (like : s.Like s') (n : Negotiation) : (s.past n).Like (s'.past n) := by
  obtain ⟨transport, tokens, reported⟩ := s
  obtain ⟨transport', tokens', reported'⟩ := s'
  obtain ⟨rfl, rfl⟩ : transport = transport' ∧ tokens = tokens' := like
  exact ⟨rfl, rfl⟩

end Like

/-- Negotiations, one after the other, and a session that they lead to. -/
inductive Course (credentials : Credentials) : Session → List Negotiation → Session → Prop
  | done {s s' : Session} (like : s'.Like s) : Course credentials s [] s'
  | next {s s₁ s' : Session} {later : List Negotiation} (q : Inquiry)
      (like : s₁.Like (s.past (s.negotiation credentials q)))
      (rest : Course credentials s₁ later s') :
      Course credentials s (s.negotiation credentials q :: later) s'

namespace Course

theorem of_like {ns : List Negotiation} (course : Course credentials s ns s')
    (like : s₁.Like s) : Course credentials s₁ ns s' := by
  cases course with
  | done last => exact .done (last.trans like.symm)
  | next q last rest =>
    rw [← like.negotiation] at last ⊢
    exact .next q (last.trans (like.symm.past _)) rest

theorem nil (course : Course credentials s [] s') : s'.Like s := by
  cases course with
  | done like => exact like

theorem cons {later : List Negotiation} {n : Negotiation}
    (course : Course credentials s (n :: later) s') :
    n = s.negotiation credentials n.inquiry ∧
      ∃ s₁, s₁.Like (s.past n) ∧ Course credentials s₁ later s' := by
  cases course with
  | next q like rest => exact ⟨by rw [inquiry_negotiation], _, like, rest⟩

theorem append {before later : List Negotiation} (first : Course credentials s before s₁)
    (second : Course credentials s₁ later s') : Course credentials s (before ++ later) s' := by
  induction first with
  | done like => exact second.of_like ⟨like.1.symm, like.2.symm⟩
  | next q like rest inductionHypothesis => exact .next q like (inductionHypothesis second)

theorem upTo {ns : List Negotiation} (course : Course credentials s ns s₁) (like : s'.Like s₁) :
    Course credentials s ns s' := by
  simpa using course.append (.done like)

/-- A course comes to each of its negotiations in a session that the earlier ones have led to. -/
theorem split {before later : List Negotiation} {n : Negotiation}
    (course : Course credentials s (before ++ n :: later) s') :
    ∃ m m', Course credentials s before m ∧ n = m.negotiation credentials n.inquiry ∧
      Course credentials m (n :: []) m' ∧ Course credentials m' later s' := by
  induction before generalizing s with
  | nil =>
    obtain ⟨own, m', like, rest⟩ := course.cons
    exact ⟨s, m', .done (.refl s), own, own ▸ .next _ (own ▸ like) (.done (.refl _)), rest⟩
  | cons first more inductionHypothesis =>
    cases course with
    | next q like rest =>
      obtain ⟨m, m', earlier, own, here, last⟩ := inductionHypothesis rest
      exact ⟨m, m', .next q like earlier, own, here, last⟩

/-- The transport at the end is what all attempts of a course have left of it. -/
theorem carries {ns : List Negotiation} (course : Course credentials s ns s') :
    s.transport.Carries (ns.flatMap Negotiation.attempts) s'.transport := by
  induction course with
  | done like => exact like.1
  | @next s s₁ s' later q like rest inductionHypothesis =>
    rw [like.1] at inductionHypothesis
    exact (s.carries_negotiation credentials q).append inductionHypothesis

end Course

end Session

/-- What comes to a session runs to one like it. -/
theorem Session.ComesTo.run {m : Exchange α} {s s' : Session} {r : Except RegistryError α}
    (comes : Session.ComesTo m s r s') : (m.run s).1 = r ∧ (m.run s).2.Like s' := by
  obtain ⟨reported, ran⟩ := comes s.notices
  have same : m.run s = (r, { s' with notices := reported }) := ran
  rw [same]
  exact ⟨rfl, rfl, rfl⟩

/-! ## What calls ask -/

def Call.scope : Call → String
  | .catalogPage _ => RegistryClient.catalogScope
  | .tagList repository | .lookup repository _ => RegistryClient.pullScope repository
  | .removal repository _ => RegistryClient.deleteScope repository

namespace RegistryClient

def catalogInquiry (url : Url) : Inquiry :=
  ⟨catalogScope, "catalog listing", .get, url, Request.anything⟩

def tagsInquiry (repository : String) (url : Url) : Inquiry :=
  ⟨pullScope repository, "tag listing", .get, url, Request.anything⟩

def lookupInquiry (repository : String) (url : Url) : Inquiry :=
  ⟨pullScope repository, "manifest lookup", .head, url, acceptedManifests⟩

def removalInquiry (repository : String) (url : Url) : Inquiry :=
  ⟨deleteScope repository, "manifest deletion", .delete, url, Request.anything⟩

variable (c : RegistryClient)

/-- What a call asks first, if there is an address for it. -/
def inquiry? : Call → Except RegistryError Inquiry
  | .catalogPage cursor => (c.catalogUrl cursor).map catalogInquiry
  | .tagList repository => (c.tagsUrl repository none).map (tagsInquiry repository)
  | .lookup repository reference => (c.manifestUrl repository reference).map (lookupInquiry repository)
  | .removal repository digest => (c.manifestUrl repository digest).map (removalInquiry repository)

def negotiated (s : Session) : Except RegistryError Inquiry → List Negotiation
  | .error _ => []
  | .ok q => [s.negotiation c.credentials q]

/-- The negotiations for the tags of a repository from a cursor on, one for each page. -/
def tagNegotiations (repository : String) : Nat → Option String → Session → List Negotiation
  | 0, _, _ => []
  | bound + 1, cursor, s =>
    c.negotiated s ((c.tagsUrl repository cursor).map (tagsInquiry repository)) ++
      match (c.tagPage repository cursor).run s with
      | (.ok (_, some next), s') => tagNegotiations repository bound (some next) s'
      | _ => []

/-- All negotiations of a call. -/
def negotiations (s : Session) : Call → List Negotiation
  | .tagList repository => c.tagNegotiations repository (s.left + 1) none s
  | call => c.negotiated s (c.inquiry? call)

def after (s : Session) (calls : List Call) : Session :=
  calls.foldl (fun s call => ((c.call call).run s).2) s

/-- All negotiations of calls made one after the other. -/
def history (s : Session) : List Call → List Negotiation
  | [] => []
  | call :: later => c.negotiations s call ++ history ((c.call call).run s).2 later

/-! ## One inquiry -/

open Session

/-- Something that makes one inquiry, if there is an address for it, and reads the answer. -/
def Asks (m : Exchange α) (q? : Except RegistryError Inquiry)
    (read : Response → Except RegistryError α) : Prop :=
  ∀ s, ComesTo m s (q?.bind fun q => (s.negotiation c.credentials q).conclusion.bind read)
    (match q? with
    | .error _ => s
    | .ok q => s.past (s.negotiation c.credentials q))

variable {c}

theorem Asks.of_perform {q : Inquiry} {rest : Response → Exchange α}
    {read : Response → Except RegistryError α}
    (reads : ∀ response s, ComesTo (rest response) s (read response) s) :
    c.Asks (Session.perform c.credentials q.scope q.operation q.method q.url q.accept >>= rest)
      (.ok q) read := by
  intro s
  have performed := perform_comesTo c.credentials q s
  dsimp only [Except.bind]
  cases concluded : (s.negotiation c.credentials q).conclusion with
  | error e => exact (concluded ▸ performed).bind_error
  | ok response => exact (concluded ▸ performed).bind (reads response _)

/-- The page of tags in a response, and the cursor of the page after it. -/
def tagsIn (cursor : Option String) (response : Response) :
    Except RegistryError (List String × Option String) :=
  match response.json?.bind (Json.listing? "tags") with
  | some tags => (nextCursor cursor (nextLink? response) "Tag").map fun next => (tags, next)
  | none => .error ⟨.parse, s!"Failed to parse tags response: {undecodable}"⟩

variable (c)

theorem asks_tagPage (repository : String) (cursor : Option String) :
    c.Asks (c.tagPage repository cursor) ((c.tagsUrl repository cursor).map (tagsInquiry repository))
      (tagsIn cursor) := by
  intro s
  unfold tagPage
  cases c.tagsUrl repository cursor with
  | error e => exact (ComesTo.lift (.error e) s).bind_error
  | ok url =>
    refine (ComesTo.lift (.ok url) s).bind
      (Asks.of_perform (q := tagsInquiry repository url) ?_ s)
    intro response s
    unfold tagsIn
    cases response.json?.bind (Json.listing? "tags") with
    | none => exact .throw _ s
    | some tags =>
      dsimp only
      cases nextCursor cursor (nextLink? response) "Tag" with
      | error e => exact (ComesTo.lift (.error e) s).bind_error
      | ok next => exact (ComesTo.lift (.ok next) s).bind (.pure _ s)

/-- The page of the catalog in a response. -/
def catalogIn (response : Response) : Except RegistryError CatalogPage :=
  match response.json?.bind (Json.listing? "repositories") with
  | some repositories => .ok ⟨repositories, nextLink? response⟩
  | none => .error ⟨.parse, s!"Failed to parse catalog response: {undecodable}"⟩

theorem asks_catalogPage (cursor : Option String) :
    c.Asks (c.catalogPage cursor) ((c.catalogUrl cursor).map catalogInquiry) catalogIn := by
  intro s
  unfold catalogPage
  cases c.catalogUrl cursor with
  | error e => exact (ComesTo.lift (.error e) s).bind_error
  | ok url =>
    refine (ComesTo.lift (.ok url) s).bind ((ComesTo.report _ _ s).bind
      (Asks.of_perform (q := catalogInquiry url) ?_ s))
    intro response s
    unfold catalogIn
    cases response.json?.bind (Json.listing? "repositories") with
    | none => exact .throw _ s
    | some repositories => exact .pure _ s

theorem asks_lookup (repository reference : String) :
    ∃ read, c.Asks (c.lookup repository reference)
      ((c.manifestUrl repository reference).map (lookupInquiry repository)) read := by
  refine ⟨fun response => (response.header? digestHeader).elim
    (.error ⟨.registry, s!"No {digestHeader} header for {repository}:{reference}"⟩)
    fun digest => .ok ⟨Text.trimmed digest, mediaType response⟩, ?_⟩
  intro s
  unfold lookup
  cases c.manifestUrl repository reference with
  | error e => exact (ComesTo.lift (.error e) s).bind_error
  | ok url =>
    refine (ComesTo.lift (.ok url) s).bind
      (Asks.of_perform (q := lookupInquiry repository url) ?_ s)
    intro response s
    cases response.header? digestHeader with
    | none => exact .throw _ s
    | some digest => exact .pure _ s

theorem asks_removal (repository digest : String) :
    c.Asks (c.removal repository digest)
      ((c.manifestUrl repository digest).map (removalInquiry repository)) fun _ => .ok () := by
  intro s
  unfold removal
  cases c.manifestUrl repository digest with
  | error e => exact (ComesTo.lift (.error e) s).bind_error
  | ok url =>
    refine (ComesTo.lift (.ok url) s).bind ((ComesTo.report _ _ s).bind
      (Asks.of_perform (q := removalInquiry repository url) ?_ s))
    exact fun _ s => .pure () s

/-! ## Whole calls -/

variable {c}

theorem Asks.course {m : Exchange α} {q? : Except RegistryError Inquiry}
    {read : Response → Except RegistryError α} (asks : c.Asks m q? read) (s : Session) :
    Course c.credentials s (c.negotiated s q?) (m.run s).2 := by
  obtain ⟨-, like⟩ := (asks s).run
  cases q? with
  | error e => exact .done like
  | ok q => exact .next q like (.done (.refl _))

/-- A negotiation that comes to no success fails what it is for. -/
theorem Asks.fails {m : Exchange α} {q? : Except RegistryError Inquiry}
    {read : Response → Except RegistryError α} (asks : c.Asks m q? read) {s : Session}
    {n : Negotiation} (member : n ∈ c.negotiated s q?) {e : RegistryError}
    (failed : n.conclusion = .error e) : (m.run s).1 = .error e := by
  obtain ⟨result, -⟩ := (asks s).run
  cases q? with
  | error e => cases member
  | ok q =>
    rw [List.mem_singleton.mp member] at failed
    rw [result]
    dsimp only [Except.bind]
    rw [failed]

variable (c)

theorem course_tagPages (repository : String) (bound : Nat) (cursor : Option String) (s : Session) :
    Course c.credentials s (c.tagNegotiations repository bound cursor s)
      ((c.tagPages repository bound cursor).run s).2 := by
  induction bound generalizing cursor s with
  | zero => exact .done (.refl s)
  | succ bound inductionHypothesis =>
    have page := (c.asks_tagPage repository cursor).course s
    rw [tagNegotiations, run_tagPages_succ]
    rcases ran : (c.tagPage repository cursor).run s with ⟨e | ⟨tags, next⟩, s'⟩
    · rw [ran] at page
      exact page.append (.done (.refl s'))
    · rw [ran] at page
      cases next with
      | none => exact page.append (.done (.refl s'))
      | some next =>
        -- Whether the later pages come or fail, the session is the one they have left.
        have further := page.append (inductionHypothesis (some next) s')
        dsimp only
        rcases rest : (c.tagPages repository bound (some next)).run s' with ⟨e | more, s''⟩ <;>
        · rw [rest] at further
          exact further

theorem tagList_like_tagPages (repository : String) (s : Session) :
    ((c.tagList repository).run s).1 = ((c.tagPages repository (s.left + 1) none).run s).1 ∧
      ((c.tagList repository).run s).2.Like
        ((c.tagPages repository (s.left + 1) none).run s).2 := by
  have got : (get : Exchange Session).run s = (.ok s, s) := rfl
  rw [tagList, run_bind, got]
  dsimp only
  rw [run_bind, left]
  rcases (c.tagPages repository (s.transport.replies.length + 1) none).run s with ⟨e | tags, s'⟩ <;>
  exact ⟨rfl, rfl, rfl⟩

/-- A call is the course of its negotiations. -/
theorem course_call (s : Session) (call : Call) :
    Course c.credentials s (c.negotiations s call) ((c.call call).run s).2 := by
  cases call with
  | catalogPage cursor => exact (c.asks_catalogPage cursor).course s
  | tagList repository =>
    exact (c.course_tagPages repository (s.left + 1) none s).upTo (c.tagList_like_tagPages repository s).2
  | lookup repository reference =>
    obtain ⟨read, asks⟩ := c.asks_lookup repository reference
    exact asks.course s
  | removal repository digest => exact (c.asks_removal repository digest).course s

theorem course_history (s : Session) (calls : List Call) :
    Course c.credentials s (c.history s calls) (c.after s calls) := by
  induction calls generalizing s with
  | nil => exact .done (.refl s)
  | cons call later inductionHypothesis =>
    exact (c.course_call s call).append (inductionHypothesis _)

/-! ## One negotiation for each page -/

/-- Negotiations for the pages of tags from a cursor on: one for each page, and another one only if
    the page was had and its response names the cursor of the next. -/
inductive Pages (repository : String) : Option String → List Negotiation → Prop
  | none {cursor : Option String} : Pages repository cursor []
  | last {cursor : Option String} {n : Negotiation} {url : Url}
      (address : c.tagsUrl repository cursor = .ok url) (asks : n.inquiry = tagsInquiry repository url) :
      Pages repository cursor [n]
  | further {cursor : Option String} {n : Negotiation} {url : Url} {response : Response}
      {next : String} {later : List Negotiation}
      (address : c.tagsUrl repository cursor = .ok url) (asks : n.inquiry = tagsInquiry repository url)
      (concluded : n.conclusion = .ok response) (linked : nextLink? response = some next)
      (rest : Pages repository (some next) later) : Pages repository cursor (n :: later)

theorem linked_of_tagsIn {cursor : Option String} {response : Response} {tags : List String}
    {next : String} (read : tagsIn cursor response = .ok (tags, some next)) :
    nextLink? response = some next := by
  unfold tagsIn at read
  cases held : response.json?.bind (Json.listing? "tags") with
  | none =>
    rw [held] at read
    cases read
  | some tags =>
    rw [held] at read
    cases linked : nextLink? response with
    | none =>
      rw [linked] at read
      cases read
    | some named =>
      rw [linked] at read
      by_cases stuck : cursor = some named
      · simp [nextCursor, stuck, Except.map] at read
      · simpa [nextCursor, stuck, Except.map] using (congrArg (·.map Prod.snd) read)

/-- A page that leads on was had, and its response names the cursor. -/
theorem next_of_tagPage {repository next : String} {cursor : Option String} {s s' : Session}
    {tags : List String}
    (ran : (c.tagPage repository cursor).run s = (.ok (tags, some next), s')) :
    ∃ url response, c.tagsUrl repository cursor = .ok url ∧
      (s.negotiation c.credentials (tagsInquiry repository url)).conclusion = .ok response ∧
      nextLink? response = some next := by
  obtain ⟨result, -⟩ := (c.asks_tagPage repository cursor s).run
  rw [ran] at result
  dsimp only at result
  cases address : c.tagsUrl repository cursor with
  | error e =>
    rw [address] at result
    cases result
  | ok url =>
    rw [address] at result
    dsimp only [Except.map, Except.bind] at result
    cases concluded : (s.negotiation c.credentials (tagsInquiry repository url)).conclusion with
    | error e =>
      rw [concluded] at result
      cases result
    | ok response =>
      rw [concluded] at result
      exact ⟨url, response, rfl, concluded, linked_of_tagsIn result.symm⟩

theorem pages_tagNegotiations (repository : String) (bound : Nat) (cursor : Option String)
    (s : Session) : c.Pages repository cursor (c.tagNegotiations repository bound cursor s) := by
  induction bound generalizing cursor s with
  | zero => exact .none
  | succ bound inductionHypothesis =>
    rw [tagNegotiations]
    -- The page fails, is the last one, or leads on.
    rcases ran : (c.tagPage repository cursor).run s with ⟨e | ⟨tags, _ | next⟩, s'⟩
    · cases address : c.tagsUrl repository cursor with
      | error e => exact .none
      | ok url => exact .last address (s.inquiry_negotiation c.credentials _)
    · cases address : c.tagsUrl repository cursor with
      | error e => exact .none
      | ok url => exact .last address (s.inquiry_negotiation c.credentials _)
    · obtain ⟨url, response, address, concluded, linked⟩ := c.next_of_tagPage ran
      rw [address]
      exact .further address (s.inquiry_negotiation c.credentials _) concluded linked
        (inductionHypothesis (some next) s')

variable {c}

namespace Pages

variable {repository : String} {cursor : Option String} {before later : List Negotiation}
  {n n' : Negotiation}

theorem scope {ns : List Negotiation} (pages : c.Pages repository cursor ns) (member : n ∈ ns) :
    n.inquiry.scope = pullScope repository := by
  induction pages with
  | none => cases member
  | last address asks => rw [List.mem_singleton.mp member, asks]; rfl
  | further address asks concluded linked rest inductionHypothesis =>
    cases member with
    | head => rw [asks]; rfl
    | tail _ rest => exact inductionHypothesis rest

theorem head {later : List Negotiation} (pages : c.Pages repository cursor (n :: later)) :
    (c.tagsUrl repository cursor).map (tagsInquiry repository) = .ok n.inquiry := by
  cases pages with
  | last address asks | further address asks => rw [address, asks]; rfl

/-- Every further page is asked for only because the page before it was had and named its cursor. -/
theorem link (pages : c.Pages repository cursor (before ++ n :: n' :: later)) :
    ∃ response next, n.conclusion = .ok response ∧ nextLink? response = some next ∧
      (c.cursorUrl next).map (tagsInquiry repository) = .ok n'.inquiry := by
  induction before generalizing cursor with
  | nil =>
    cases pages with
    | further address asks concluded linked rest => exact ⟨_, _, concluded, linked, rest.head⟩
  | cons first more inductionHypothesis =>
    -- `cases` cannot see through the `++`, so what is left is named and known not to be empty.
    have further : more ++ n :: n' :: later ≠ [] := by simp
    rw [List.cons_append] at pages
    generalize more ++ n :: n' :: later = rest at *
    cases pages with
    | last => exact absurd rfl further
    | further address asks concluded linked rest => exact inductionHypothesis rest

end Pages

/-! ## All negotiations of a call -/

theorem map_eq_ok {r : Except ε α} {f : α → β} {b : β} (mapped : r.map f = .ok b) :
    ∃ a, r = .ok a ∧ f a = b := by
  cases r with
  | error e => cases mapped
  | ok a => exact ⟨a, rfl, Except.ok.inj mapped⟩

theorem scope_of_inquiry {call : Call} {q : Inquiry} (asks : c.inquiry? call = .ok q) :
    q.scope = call.scope := by
  cases call <;>
  · simp only [inquiry?] at asks
    obtain ⟨url, -, rfl⟩ := map_eq_ok asks
    rfl

theorem scope_of_negotiations {s : Session} {call : Call} {n : Negotiation}
    (member : n ∈ c.negotiations s call) : n.inquiry.scope = call.scope := by
  have single (member : n ∈ c.negotiated s (c.inquiry? call)) : n.inquiry.scope = call.scope := by
    cases asks : c.inquiry? call with
    | error e =>
      rw [asks] at member
      cases member
    | ok q =>
      rw [asks] at member
      rw [List.mem_singleton.mp member, inquiry_negotiation]
      exact scope_of_inquiry asks
  cases call with
  | tagList repository => exact (c.pages_tagNegotiations repository _ none s).scope member
  | catalogPage | lookup | removal => exact single member

theorem fails_tagPages {repository : String} {bound : Nat} {cursor : Option String} {s : Session}
    {n : Negotiation} {e : RegistryError} (member : n ∈ c.tagNegotiations repository bound cursor s)
    (failed : n.conclusion = .error e) :
    ((c.tagPages repository bound cursor).run s).1 = .error e := by
  induction bound generalizing cursor s with
  | zero => cases member
  | succ bound inductionHypothesis =>
    -- The failed negotiation is that of the first page, or one of the pages that it leads on to.
    have first (own : n ∈ _) := (c.asks_tagPage repository cursor).fails (s := s) own failed
    rw [tagNegotiations] at member
    rw [run_tagPages_succ]
    rcases ran : (c.tagPage repository cursor).run s with ⟨e' | ⟨tags, _ | next⟩, s'⟩
    · rw [ran] at member first
      cases first (by simpa using member)
      rfl
    · rw [ran] at member first
      cases first (by simpa using member)
    · rw [ran] at member first
      rcases List.mem_append.mp member with own | further
      · cases first own
      · have rest := inductionHypothesis further
        dsimp only
        rcases more : (c.tagPages repository bound (some next)).run s' with ⟨e' | tags', s''⟩
        · rw [more] at rest
          exact rest
        · rw [more] at rest
          cases rest

/-- A call fails with the failure of any of its negotiations. -/
theorem fails_of_negotiations {s : Session} {call : Call} {n : Negotiation}
    (member : n ∈ c.negotiations s call) {e : RegistryError} (failed : n.conclusion = .error e) :
    ((c.call call).run s).1 = .error e := by
  cases call with
  | catalogPage cursor => exact (c.asks_catalogPage cursor).fails (s := s) member failed
  | tagList repository => exact (c.tagList_like_tagPages repository s).1.trans (fails_tagPages member failed)
  | lookup repository reference =>
    obtain ⟨read, asks⟩ := c.asks_lookup repository reference
    exact asks.fails (s := s) member failed
  | removal repository digest => exact (c.asks_removal repository digest).fails (s := s) member failed

end RegistryClient

end RegistryCache
