import RegistryCache.Proofs.Negotiation.Exchange

/-! # What requests carry

A session knows one token for each scope: the one that was handed out last while a request of that
scope was negotiated (`latestToken?`).  That token is what requests of the scope carry, and no other
request carries it; without one they carry name and password, if these are known
(`RegistryClient.credentials_carried`).
-/

namespace RegistryCache

/-! ## Tokens in a history -/

/-- The token that was handed out last in the negotiations of a scope. -/
def latestToken? (ns : List Negotiation) (scope : String) : Option String :=
  ((ns.filter (·.inquiry.scope = scope)).filterMap Negotiation.obtained?).getLast?

theorem latestToken?_append (before later : List Negotiation) (scope : String) :
    latestToken? (before ++ later) scope =
      (latestToken? later scope).or (latestToken? before scope) := by
  simp [latestToken?, List.getLast?_append]

theorem latestToken?_singleton (n : Negotiation) (scope : String) :
    latestToken? [n] scope = if scope = n.inquiry.scope then n.obtained? else none := by
  unfold latestToken?
  by_cases own : scope = n.inquiry.scope
  · cases obtained : n.obtained? <;> simp [own, obtained]
  · simp [own, Ne.symm own]

namespace Session

variable {credentials : Credentials} {s s' : Session}

/-- A course leaves the token that was handed out last, or the one from before. -/
theorem Course.token? {ns : List Negotiation} (course : Course credentials s ns s')
    (scope : String) : s'.token? scope = (latestToken? ns scope).or (s.token? scope) := by
  induction course with
  | done like => simp [Session.token?, like.2, latestToken?]
  | @next s s₁ s' later q like rest inductionHypothesis =>
    have known : s₁.token? scope = (s.past (s.negotiation credentials q)).token? scope := by
      rw [Session.token?, Session.token?, like.2]
    rw [inductionHypothesis, known, token?_past, ← List.singleton_append, latestToken?_append,
      latestToken?_singleton]
    split <;> simp [Option.or_assoc]

end Session

/-! ## Headers -/

/-- What a request carries where a token is known, or none. -/
def Credentials.carried? (c : Credentials) : Option String → Option String
  | some token => some s!"Bearer {token}"
  | none => c.username.map fun username => basicAuthorization username c.password

namespace Session

variable {credentials : Credentials} {s : Session}

theorem authorization_eq (s : Session) (credentials : Credentials) (scope : String) :
    s.authorization credentials scope = credentials.carried? (s.token? scope) := by
  unfold authorization
  cases s.token? scope <;> rfl

/-- The first request of a negotiation carries the token that is known. -/
theorem request_first (s : Session) (credentials : Credentials) (q : Inquiry) :
    (s.negotiation credentials q).first.request =
      request q.method q.url (credentials.carried? (s.token? q.scope)) q.accept := by
  have course := s.negotiates_negotiation credentials q
  generalize s.negotiation credentials q = n at course
  rw [← authorization_eq]
  cases course <;> exact Attempt.request_across _ _

/-- The second carries the token that was handed out meanwhile, if any. -/
theorem request_retry {q : Inquiry} {a : Attempt}
    (tried : (s.negotiation credentials q).retry = some a) :
    a.request = request q.method q.url
      (credentials.carried? ((s.past (s.negotiation credentials q)).token? q.scope)) q.accept := by
  have course := s.negotiates_negotiation credentials q
  rw [token?_past, inquiry_negotiation, if_pos rfl]
  generalize s.negotiation credentials q = n at course tried
  cases course with
  | unchallenged | unknown | lost | refused => cases tried
  | known given =>
    cases tried
    rw [tried, Attempt.request_across, authorization_eq]
    simp [Negotiation.obtained?, Negotiation.token?, given, Session.token?, beyond]
  | equipped given found fetch =>
    cases tried
    rw [tried, Attempt.request_across, authorization_eq, token?_keepToken]
    simp [Negotiation.obtained?, Negotiation.token?, given, found, fetch, Except.toOption]

end Session

/-! ## Addresses without credentials -/

def Url.Anonymous (u : Url) : Prop :=
  ∀ a, u.authority = some a → a.username = [] ∧ a.password = none

theorem Url.Anonymous.splitCredentials {u : Url} (anonymous : u.Anonymous) :
    Session.splitCredentials u = (u, none) := by
  unfold Session.splitCredentials
  cases named : u.authority with
  | none => rfl
  | some a =>
    obtain ⟨nameless, secretless⟩ := anonymous a named
    have empty : Session.decoded? [] = some "" := by decide +kernel
    simp [nameless, secretless, empty]

theorem Session.request_eq_ok {method : Method} {url : Url} {authorization : Option String}
    {accept : String} {r : Request} (anonymous : url.Anonymous)
    (made : request method url authorization accept = .ok r) :
    r = ⟨method, url, authorization, accept⟩ := by
  unfold request at made
  rw [anonymous.splitCredentials] at made
  split at made
  · cases made
  · dsimp only at made
    split at made
    · cases made
    · split at made
      · cases made
      · simpa using made.symm

/-! ## Scopes -/

/-- What a call is for, as far as its tokens go. -/
inductive Purpose where
  | listing
  | reading (repository : String)
  | deleting (repository : String)
  deriving DecidableEq, Repr

namespace Purpose

def scope : Purpose → String
  | .listing => RegistryClient.catalogScope
  | .reading repository => RegistryClient.pullScope repository
  | .deleting repository => RegistryClient.deleteScope repository

theorem toList_reading (repository : String) : (scope (.reading repository)).toList =
    "repository:".toList ++ repository.toList ++ ":pull".toList := by
  simp only [scope, RegistryClient.pullScope, toString, String.toList_append]

theorem toList_deleting (repository : String) : (scope (.deleting repository)).toList =
    "repository:".toList ++ repository.toList ++ ":delete".toList := by
  simp only [scope, RegistryClient.deleteScope, toString, String.toList_append]

/-- No two purposes have one scope: the last letters tell them apart. -/
theorem scope_injective : Function.Injective scope := by
  intro p p' same
  have chars := congrArg String.toList same
  have last := congrArg List.getLast? chars
  -- Scopes of one kind differ in the repository, those of different kinds in the last letter.
  cases p <;> cases p' <;>
    simp only [toList_reading, toList_deleting, List.getLast?_append] at chars last
  case listing.listing => rfl
  case reading.reading => simpa [String.toList_inj] using chars
  case deleting.deleting => simpa [String.toList_inj] using chars
  all_goals simp [scope, RegistryClient.catalogScope] at last

end Purpose

def Call.purpose : Call → Purpose
  | .catalogPage _ => .listing
  | .tagList repository | .lookup repository _ => .reading repository
  | .removal repository _ => .deleting repository

theorem Call.scope_eq_iff (call call' : Call) :
    call.scope = call'.scope ↔ call.purpose = call'.purpose := by
  have own (call : Call) : call.scope = call.purpose.scope := by cases call <;> rfl
  rw [own, own, Purpose.scope_injective.eq_iff]

/-! ## The law -/

/-- An answer to a challenge that comes to nothing leaves every token as it was. -/
theorem Session.tokens_of_respond_error {credentials : Credentials} {scope : String}
    {challenge : Challenge} {s s' : Session} {e : RegistryError}
    (ran : (respond credentials scope challenge).run s = (.error e, s')) : s'.tokens = s.tokens := by
  cases challenge with
  | basic => cases ran
  | bearer realm service tokenScope =>
    obtain ⟨result, like⟩ :=
      (respond_bearer_comesTo credentials s scope realm service tokenScope).run
    rw [ran] at result like
    refine like.2.trans ?_
    cases found : tokenUrl realm service tokenScope with
    | error _ => rfl
    | ok url =>
      rw [found] at result
      dsimp only [Except.bind] at result ⊢
      cases fetch : (s.fetched credentials url).token with
      | error _ => rfl
      | ok token =>
        rw [fetch] at result
        cases result

namespace RegistryClient

open Session

variable (c : RegistryClient)

/-- What the two requests of a negotiation carry, after all that was negotiated before. -/
theorem carried_of_course {s s' : Session} {ns before later : List Negotiation} {n : Negotiation}
    (course : Course c.credentials s ns s') (split : ns = before ++ n :: later) :
    n.first.request = request n.inquiry.method n.inquiry.url
        (c.credentials.carried?
          ((latestToken? before n.inquiry.scope).or (s.token? n.inquiry.scope))) n.inquiry.accept ∧
      ∀ a, n.retry = some a → a.request = request n.inquiry.method n.inquiry.url
        (c.credentials.carried?
          ((latestToken? (before ++ [n]) n.inquiry.scope).or (s.token? n.inquiry.scope)))
        n.inquiry.accept := by
  subst split
  obtain ⟨m, m', earlier, own, here, -⟩ := course.split
  have known := earlier.token? n.inquiry.scope
  constructor
  · rw [← known]
    have first := m.request_first c.credentials n.inquiry
    rwa [← own] at first
  · intro a tried
    have then' := (earlier.append (.next n.inquiry (.refl _) (.done (.refl _)))).token?
      n.inquiry.scope
    rw [← own] at then'
    rw [← then']
    rw [own] at tried
    have retry := request_retry tried
    rwa [← own] at retry

/-- Over all calls that a client makes, whatever the other side answers: the token for a scope is the
    one that was handed out last while a request of that scope was negotiated; the requests of the
    scope carry it, and without one they carry name and password, if these are known.  A token that
    could not be had changes nothing.  Calls that are not for the same have no scope in common. -/
theorem credentials_carried (t : Transport) (calls : List Call) :
    t.Carries ((c.history (.start t) calls).flatMap Negotiation.attempts)
      (c.after (.start t) calls).transport ∧
    (∀ before n later, c.history (.start t) calls = before ++ n :: later → n.inquiry.url.Anonymous →
      (∀ request outcome, n.first = .sent request outcome →
        request.authorization =
          c.credentials.carried? (latestToken? before n.inquiry.scope)) ∧
      (∀ request outcome, n.retry = some (.sent request outcome) →
        request.authorization =
          c.credentials.carried? (latestToken? (before ++ [n]) n.inquiry.scope))) ∧
    (∀ scope, (c.after (.start t) calls).token? scope =
      latestToken? (c.history (.start t) calls) scope) ∧
    (∀ s call n, n ∈ c.negotiations s call → n.inquiry.scope = call.scope) ∧
    (∀ call call' : Call, call.scope = call'.scope ↔ call.purpose = call'.purpose) ∧
    ∀ scope challenge s e s',
      (respond c.credentials scope challenge).run s = (.error e, s') → s'.tokens = s.tokens := by
  have course := c.course_history (.start t) calls
  refine ⟨course.carries, ?_, ?_, fun _ _ _ => scope_of_negotiations, Call.scope_eq_iff,
    fun _ _ _ _ _ => tokens_of_respond_error⟩
  · intro before n later split anonymous
    obtain ⟨first, retry⟩ := c.carried_of_course course split
    have fresh (token : Option String) (scope : String) :
        token.or ((Session.start t).token? scope) = token := by
      cases token <;> rfl
    rw [fresh] at first
    constructor
    · intro request outcome sent
      rw [sent] at first
      rw [request_eq_ok anonymous first.symm]
    · intro request outcome tried
      have again := retry _ tried
      rw [fresh] at again
      rw [request_eq_ok anonymous again.symm]
  · intro scope
    rw [course.token?]
    cases latestToken? (c.history (.start t) calls) scope <;> rfl

/-- A registry that lets its visitors read once they bring a token, and delete without one. -/
def trusting : Transport :=
  ⟨true, [wanting, holding "[\"one\",null]", holding "", holding "", holding ""], [], [], false⟩

def visits : List Call := [.lookup "app" "v1", .removal "app" "sha256:1", .lookup "app" "v2"]

/-- The token goes with what is read, not with what is deleted in between. -/
theorem credentials_carried_two_purposes :
    (namedClient.after (.start trusting) visits).token? (pullScope "app") = some "one" ∧
    (namedClient.after (.start trusting) visits).token? (deleteScope "app") = none ∧
    (namedClient.after (.start trusting) visits).transport.requests.map (·.authorization) =
      [some "Basic dTpw", some "Basic dTpw", some "Bearer one", some "Basic dTpw",
        some "Bearer one"] := by
  obtain ⟨carries, -, kept, -⟩ := namedClient.credentials_carried trusting visits
  refine ⟨?_, ?_, ?_⟩
  · rw [kept]
    decide +kernel
  · rw [kept]
    decide +kernel
  · rw [carries.requests]
    decide +kernel

end RegistryClient

end RegistryCache
