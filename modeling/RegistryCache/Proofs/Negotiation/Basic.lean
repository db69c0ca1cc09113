import Mathlib.Data.List.Basic
import RegistryCache.Http.Client

/-! # Negotiations

A page or a manifest is not simply asked for.  The request is tried; if the registry challenges it, a
token is fetched or the credentials are found to do, and the request is tried once more.  A
`Negotiation` records what was tried and what came of it, and `Session.negotiation` tells how one goes
in a session, attempt by attempt.  There are six ways (`Session.Negotiates`).
-/

namespace RegistryCache

/-! ## Attempts -/

/-- The token in the answer of a token service, or why there is none. -/
def Response.token (r : Response) : Except RegistryError String :=
  if r.status.isSuccess then
    match r.json?.bind TokenAnswer.ofJson? with
    | none => .error ⟨.parse, s!"Failed to parse token response: {undecodable}"⟩
    | some answer =>
      match answer.value? with
      | some token => .ok token
      | none => .error ⟨.auth, "Token response contained no token"⟩
  else .error ⟨.auth, s!"Token request failed with status: {r.status.text}"⟩

/-- A response that an operation can do with: nothing but success will do. -/
def Response.checked (operation : String) (r : Response) : Except RegistryError Response :=
  if r.status.isSuccess then .ok r else .error (r.status.failure r.errorText operation)

/-- An attempt at a request: it could not be made, or it was sent and something came of it. -/
inductive Attempt where
  | unsent (fault : TransportFault)
  | sent (request : Request) (outcome : Except TransportFault Response)
  deriving DecidableEq

namespace Attempt

def across (t : Transport) : Except TransportFault Request → Attempt
  | .error fault => .unsent fault
  | .ok request => .sent request (t.send request).1

def request : Attempt → Except TransportFault Request
  | .unsent fault => .error fault
  | .sent request _ => .ok request

@[simp] theorem request_across (t : Transport) (r : Except TransportFault Request) :
    (across t r).request = r := by
  cases r <;> rfl

def after (t : Transport) : Attempt → Transport
  | .unsent _ => t
  | .sent request _ => (t.send request).2

def outcome : Attempt → Except TransportFault Response
  | .unsent fault => .error fault
  | .sent _ outcome => outcome

/-- The response, or the failure of the operation that the attempt is part of. -/
def answer (operation : String) (a : Attempt) : Except RegistryError Response :=
  a.outcome.mapError (·.toError operation)

def challenge? (a : Attempt) : Option Challenge := a.outcome.toOption.bind Session.challenge?

/-- The token that a token service hands out, or why there is none. -/
def token (a : Attempt) : Except RegistryError String := (a.answer "request").bind Response.token

end Attempt

/-- What is left of a transport after attempts, one after the other, each of which has the outcome that
    the transport gives it. -/
def Transport.Carries (t : Transport) : List Attempt → Transport → Prop
  | [], t' => t' = t
  | a :: later, t' => (∃ request, a = .across t request) ∧ (a.after t).Carries later t'

theorem Transport.Carries.append {t t' t'' : Transport} {before later : List Attempt}
    (first : t.Carries before t') (second : t'.Carries later t'') :
    t.Carries (before ++ later) t'' := by
  induction before generalizing t with
  | nil =>
    cases first
    exact second
  | cons a more inductionHypothesis => exact ⟨first.1, inductionHypothesis first.2⟩

/-- The requests of attempts as they come to the other side. -/
def Transport.arrivals (t : Transport) (attempts : List Attempt) : List Request :=
  attempts.filterMap fun
    | .unsent _ => none
    | .sent request _ =>
      if t.connects request.url then some { request with url := { request.url with fragment := none } }
      else none

theorem Transport.connects_send (t : Transport) (request : Request) (url : Url) :
    (t.send request).2.connects url = t.connects url := by
  unfold send
  split
  · rcases t.replies with - | ⟨reply, rest⟩
    · rfl
    · cases reply <;> rfl
  · rfl

theorem Transport.requests_send (t : Transport) (request : Request) :
    (t.send request).2.requests =
      t.requests ++ t.arrivals [.sent request (t.send request).1] := by
  by_cases connects : t.connects request.url = true
  · unfold send
    rw [if_pos connects]
    rcases t.replies with - | ⟨reply, rest⟩
    · simp [arrivals, connects]
    · cases reply <;> simp [arrivals, connects]
  · simp [send, arrivals, connects]

theorem Transport.Carries.connects {t t' : Transport} {attempts : List Attempt}
    (carries : t.Carries attempts t') (url : Url) : t'.connects url = t.connects url := by
  induction attempts generalizing t with
  | nil =>
    cases carries
    rfl
  | cons a later inductionHypothesis =>
    obtain ⟨⟨attempted, rfl⟩, rest⟩ := carries
    rw [inductionHypothesis rest]
    cases attempted with
    | error fault => rfl
    | ok request => exact t.connects_send request url

/-- All requests that came are those of attempts. -/
theorem Transport.Carries.requests {t t' : Transport} {attempts : List Attempt}
    (carries : t.Carries attempts t') : t'.requests = t.requests ++ t.arrivals attempts := by
  induction attempts generalizing t with
  | nil =>
    cases carries
    simp [arrivals]
  | cons a later inductionHypothesis =>
    obtain ⟨⟨attempted, rfl⟩, rest⟩ := carries
    cases attempted with
    | error fault => exact inductionHypothesis rest
    | ok request =>
      -- What arrives depends on the transport only through what it connects to, which stays.
      have same : (t.send request).2.arrivals later = t.arrivals later := by
        simp only [arrivals, t.connects_send]
      have both : t.arrivals (.sent request (t.send request).1 :: later) =
          t.arrivals [.sent request (t.send request).1] ++ t.arrivals later :=
        List.filterMap_append (l := [Attempt.sent request (t.send request).1])
      rw [Attempt.across, both, inductionHypothesis rest, Attempt.across, Attempt.after, same,
        t.requests_send, List.append_assoc]

/-! ## Negotiations -/

/-- One page or manifest request of an operation. -/
structure Inquiry where
  scope : String
  operation : String
  method : Method
  url : Url
  accept : String
  deriving DecidableEq, Repr

/-- What was tried for an inquiry: the request itself, a request for a token if one was sent, and the
    request once more if it was repeated. -/
structure Negotiation where
  inquiry : Inquiry
  first : Attempt
  fetch : Option Attempt
  retry : Option Attempt
  deriving DecidableEq

namespace Negotiation

def attempts (n : Negotiation) : List Attempt := n.first :: (n.fetch.toList ++ n.retry.toList)

/-- The attempts at the registry, in order. -/
def tries (n : Negotiation) : List Attempt := n.first :: n.retry.toList

/-- What came of asking for a token, if the first attempt was challenged to bring one. -/
def token? (n : Negotiation) : Option (Except RegistryError String) :=
  match n.first.challenge? with
  | some (.bearer realm service scope) =>
    match Session.tokenUrl realm service scope with
    | .error e => some (.error e)
    | .ok _ => n.fetch.map Attempt.token
  | _ => none

def obtained? (n : Negotiation) : Option String := n.token?.bind Except.toOption

/-- The answer that counts: that of the last attempt, unless a token was needed and not to be had. -/
def answer (n : Negotiation) : Except RegistryError Response :=
  match n.token? with
  | some (.error e) => .error e
  | _ => (n.retry.getD n.first).answer n.inquiry.operation

def conclusion (n : Negotiation) : Except RegistryError Response :=
  n.answer.bind (·.checked n.inquiry.operation)

end Negotiation

namespace Session

theorem lookup_filter_of_ne {scope scope' : String} (other : scope' ≠ scope)
    (tokens : List (String × String)) :
    (tokens.filter (·.1 ≠ scope)).lookup scope' = tokens.lookup scope' := by
  induction tokens with
  | nil => rfl
  | cons entry later inductionHypothesis =>
    by_cases same : entry.1 = scope
    · have missed : (scope' == entry.1) = false := by simpa [same] using other
      rw [List.filter_cons_of_neg (by simp [same]), List.lookup_cons, missed, inductionHypothesis]
    · rw [List.filter_cons_of_pos (by simp [same]), List.lookup_cons, List.lookup_cons,
        inductionHypothesis]

theorem token?_keepToken (s : Session) (scope token scope' : String) :
    (s.keepToken scope token).token? scope' =
      if scope' = scope then some token else s.token? scope' := by
  unfold token? keepToken
  rw [List.lookup_cons]
  by_cases own : scope' = scope
  · simp [own]
  -- The new entry is passed over, and so are the old ones of its scope.
  · rw [lookup_filter_of_ne own, if_neg own, beq_eq_false_iff_ne.mpr own]

def beyond (s : Session) (a : Attempt) : Session := { s with transport := a.after s.transport }

/-- The session after a negotiation: its attempts were made, and a token that was handed out is kept. -/
def past (s : Session) (n : Negotiation) : Session :=
  { s with
    transport := n.attempts.foldl Attempt.after s.transport
    tokens := match n.obtained? with
      | some token => (s.keepToken n.inquiry.scope token).tokens
      | none => s.tokens }

/-- Only a token that was handed out changes what is known of tokens, and only for its scope. -/
theorem token?_past (s : Session) (n : Negotiation) (scope : String) :
    (s.past n).token? scope =
      if scope = n.inquiry.scope then n.obtained?.or (s.token? scope) else s.token? scope := by
  unfold past
  cases n.obtained? with
  | none => exact (ite_self (s.token? scope)).symm
  | some token => exact s.token?_keepToken n.inquiry.scope token scope

/-- An attempt at an inquiry, with the authorization that a session has for it. -/
def tried (s : Session) (credentials : Credentials) (q : Inquiry) : Attempt :=
  .across s.transport (request q.method q.url (s.authorization credentials q.scope) q.accept)

def fetched (s : Session) (credentials : Credentials) (url : Url) : Attempt :=
  .across s.transport (request .get url credentials.authorization? Request.anything)

/-- How an inquiry is negotiated. -/
def negotiation (s : Session) (credentials : Credentials) (q : Inquiry) : Negotiation :=
  let first := s.tried credentials q
  let challenged := s.beyond first
  match first.challenge? with
  | none => ⟨q, first, none, none⟩
  | some .basic =>
    ⟨q, first, none, if credentials.username.isSome then some (challenged.tried credentials q) else none⟩
  | some (.bearer realm service scope) =>
    match tokenUrl realm service scope with
    | .error _ => ⟨q, first, none, none⟩
    | .ok url =>
      let fetch := challenged.fetched credentials url
      match fetch.token with
      | .error _ => ⟨q, first, some fetch, none⟩
      | .ok token =>
        let equipped := (challenged.beyond fetch).keepToken q.scope token
        ⟨q, first, some fetch, some (equipped.tried credentials q)⟩

/-- The ways in which a negotiation can go. -/
inductive Negotiates (s : Session) (credentials : Credentials) (q : Inquiry) : Negotiation → Prop
  | unchallenged (calm : (s.tried credentials q).challenge? = none) :
      Negotiates s credentials q ⟨q, s.tried credentials q, none, none⟩
  | unknown (given : (s.tried credentials q).challenge? = some .basic)
      (anonymous : credentials.username.isSome = false) :
      Negotiates s credentials q ⟨q, s.tried credentials q, none, none⟩
  | known (given : (s.tried credentials q).challenge? = some .basic)
      (named : credentials.username.isSome = true) :
      Negotiates s credentials q ⟨q, s.tried credentials q, none,
        some ((s.beyond (s.tried credentials q)).tried credentials q)⟩
  | lost {realm : String} {service scope : Option String} {e : RegistryError}
      (given : (s.tried credentials q).challenge? = some (.bearer realm service scope))
      (found : tokenUrl realm service scope = .error e) :
      Negotiates s credentials q ⟨q, s.tried credentials q, none, none⟩
  | refused {realm : String} {service scope : Option String} {url : Url} {e : RegistryError}
      (given : (s.tried credentials q).challenge? = some (.bearer realm service scope))
      (found : tokenUrl realm service scope = .ok url)
      (fetch : ((s.beyond (s.tried credentials q)).fetched credentials url).token = .error e) :
      Negotiates s credentials q ⟨q, s.tried credentials q,
        some ((s.beyond (s.tried credentials q)).fetched credentials url), none⟩
  | equipped {realm : String} {service scope : Option String} {url : Url} {token : String}
      (given : (s.tried credentials q).challenge? = some (.bearer realm service scope))
      (found : tokenUrl realm service scope = .ok url)
      (fetch : ((s.beyond (s.tried credentials q)).fetched credentials url).token = .ok token) :
      Negotiates s credentials q ⟨q, s.tried credentials q,
        some ((s.beyond (s.tried credentials q)).fetched credentials url),
        some ((((s.beyond (s.tried credentials q)).beyond
          ((s.beyond (s.tried credentials q)).fetched credentials url)).keepToken q.scope
            token).tried credentials q)⟩

/-- There is no other way. -/
theorem negotiates_negotiation (s : Session) (credentials : Credentials) (q : Inquiry) :
    s.Negotiates credentials q (s.negotiation credentials q) := by
  unfold negotiation
  dsimp only
  cases given : (s.tried credentials q).challenge? with
  | none => exact .unchallenged given
  | some challenge =>
    cases challenge with
    | basic =>
      cases named : credentials.username.isSome with
      | false => exact .unknown given named
      | true => exact .known given named
    | bearer realm service scope =>
      dsimp only
      cases found : tokenUrl realm service scope with
      | error e => exact .lost given found
      | ok url =>
        dsimp only
        cases fetch : ((s.beyond (s.tried credentials q)).fetched credentials url).token with
        | error e => exact .refused given found fetch
        | ok token => exact .equipped given found fetch

@[simp] theorem inquiry_negotiation (s : Session) (credentials : Credentials) (q : Inquiry) :
    (s.negotiation credentials q).inquiry = q := by
  have course := s.negotiates_negotiation credentials q
  generalize s.negotiation credentials q = n at course
  cases course <;> rfl

/-- The transport after a negotiation is what its attempts have left of it. -/
theorem carries_negotiation (s : Session) (credentials : Credentials) (q : Inquiry) :
    s.transport.Carries (s.negotiation credentials q).attempts
      (s.past (s.negotiation credentials q)).transport := by
  have course := s.negotiates_negotiation credentials q
  generalize s.negotiation credentials q = n at course
  cases course with
  | unchallenged | unknown | lost => exact ⟨⟨_, rfl⟩, rfl⟩
  | known | refused => exact ⟨⟨_, rfl⟩, ⟨_, rfl⟩, rfl⟩
  | equipped => exact ⟨⟨_, rfl⟩, ⟨_, rfl⟩, ⟨_, rfl⟩, rfl⟩

end Session

end RegistryCache
