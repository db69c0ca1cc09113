import RegistryCache.Proofs.Negotiation.Calls

/-! # Bounded authentication

Whatever the other side answers, a page or a manifest costs at most two requests to the registry and
one for a token between them (`Negotiation.Orderly`).  A call that makes several such requests goes on
from one to the next only after a success, so it cannot be kept busy with challenges
(`RegistryClient.exchange_bounded`).
-/

namespace RegistryCache

/-- What a request is made of. -/
theorem Session.eq_of_request {method : Method} {url : Url} {authorization : Option String}
    {accept : String} {r : Request} (made : request method url authorization accept = .ok r) :
    r.method = method ∧ r.url = (splitCredentials url).1 ∧ isSendable r.url = true := by
  unfold request at made
  split at made
  · cases made
  · dsimp only at made
    split_ifs at made with _ sendable
    cases made
    exact ⟨rfl, rfl, by simpa using sendable⟩

namespace Negotiation

/-- The first request was answered with a challenge. -/
def Challenged (n : Negotiation) (challenge : Challenge) : Prop :=
  ∃ request response value, n.first = .sent request (.ok response) ∧ response.status.code = 401 ∧
    response.header? "WWW-Authenticate" = some value ∧ Challenge.parse? value = some challenge

theorem challenged_iff {n : Negotiation} {challenge : Challenge} :
    n.Challenged challenge ↔ n.first.challenge? = some challenge := by
  constructor
  · rintro ⟨request, response, value, sent, status, header, parsed⟩
    rw [sent]
    change Session.challenge? response = some challenge
    rw [Session.challenge?, if_pos (by simpa [Status.isUnauthorized] using status), header]
    exact parsed
  · intro met
    unfold Attempt.challenge? at met
    rcases sent : n.first with fault | ⟨request, fault | response⟩
    · rw [sent] at met
      cases met
    · rw [sent] at met
      cases met
    · rw [sent] at met
      change Session.challenge? response = some challenge at met
      unfold Session.challenge? at met
      split at met
      · rename_i status
        cases header : response.header? "WWW-Authenticate" with
        | none =>
          rw [header] at met
          cases met
        | some value =>
          rw [header] at met
          exact ⟨request, response, value, sent, by simpa [Status.isUnauthorized] using status,
            header, met⟩
      · cases met

/-- How a negotiation goes, whatever it meets. -/
structure Orderly (credentials : Credentials) (n : Negotiation) : Prop where
  /-- The registry is asked twice at most, and a token service once at most, in between. -/
  bounded : n.attempts = n.first :: (n.fetch.toList ++ n.retry.toList) ∧ n.tries.length ≤ 2
  /-- The registry is asked the same each time. -/
  same : ∀ a ∈ n.tries, ∃ authorization,
    a.request = Session.request n.inquiry.method n.inquiry.url authorization n.inquiry.accept
  /-- A token is asked for at the realm of a challenge. -/
  asked : ∀ a, n.fetch = some a → ∃ realm service scope url,
    n.Challenged (.bearer realm service scope) ∧
    Session.tokenUrl realm service scope = .ok url ∧
    a.request = Session.request .get url credentials.authorization? Request.anything
  /-- The request is repeated if there is something to add to it, and only then. -/
  repeated : n.retry.isSome ↔ ∃ challenge, n.Challenged challenge ∧
    (challenge = .basic ∧ credentials.username.isSome ∨
      ∃ a token, n.fetch = some a ∧ a.token = .ok token)
  /-- Without a token there is no other request. -/
  refused : ∀ a e, n.fetch = some a → a.token = .error e → n.retry = none ∧ n.conclusion = .error e
  /-- A realm that is no address is asked for nothing. -/
  lost : ∀ realm service scope e, n.Challenged (.bearer realm service scope) →
    Session.tokenUrl realm service scope = .error e →
    n.fetch = none ∧ n.retry = none ∧ n.conclusion = .error e
  /-- The answer to the second request is final, whatever its status. -/
  final : ∀ a, n.retry = some a →
    n.conclusion = (a.answer n.inquiry.operation).bind (·.checked n.inquiry.operation)
  /-- So is that to the first if no token is asked for and the request is not repeated. -/
  settled : n.retry = none → (∀ realm service scope, ¬ n.Challenged (.bearer realm service scope)) →
    n.conclusion = (n.first.answer n.inquiry.operation).bind (·.checked n.inquiry.operation)

end Negotiation

/-! ## Every negotiation is orderly -/

namespace Session.Negotiates

variable {s : Session} {credentials : Credentials} {q : Inquiry} {n : Negotiation}

theorem same (course : s.Negotiates credentials q n) (a : Attempt) (tried : a ∈ n.tries) :
    ∃ authorization,
      a.request = request n.inquiry.method n.inquiry.url authorization n.inquiry.accept := by
  cases course with
  | unchallenged | unknown | lost | refused =>
    rw [List.mem_singleton.mp tried]
    exact ⟨_, Attempt.request_across _ _⟩
  | known | equipped =>
    rcases List.mem_pair.mp tried with rfl | rfl <;>
    exact ⟨_, Attempt.request_across _ _⟩

theorem asked (course : s.Negotiates credentials q n) (a : Attempt) (fetched : n.fetch = some a) :
    ∃ realm service scope url, n.Challenged (.bearer realm service scope) ∧
      tokenUrl realm service scope = .ok url ∧
      a.request = request .get url credentials.authorization? Request.anything := by
  cases course with
  | unchallenged | unknown | known | lost => cases fetched
  | refused given found | equipped given found =>
    cases fetched
    exact ⟨_, _, _, _, Negotiation.challenged_iff.mpr given, found, Attempt.request_across _ _⟩

theorem repeated (course : s.Negotiates credentials q n) :
    n.retry.isSome ↔ ∃ challenge, n.Challenged challenge ∧
      (challenge = .basic ∧ credentials.username.isSome ∨
        ∃ a token, n.fetch = some a ∧ a.token = .ok token) := by
  simp only [Negotiation.challenged_iff]
  cases course with
  | unchallenged calm => simp [calm]
  | unknown given anonymous => simp [given, anonymous]
  | known given named => simp [given, named]
  | lost given found => simp [given]
  | refused given found fetch => simp [given, fetch]
  | equipped given found fetch => simp [given, fetch]

theorem refused_conclusion (course : s.Negotiates credentials q n) {a : Attempt} {e : RegistryError}
    (fetched : n.fetch = some a) (failed : a.token = .error e) :
    n.retry = none ∧ n.conclusion = .error e := by
  cases course with
  | unchallenged | unknown | known | lost => cases fetched
  | refused given found fetch =>
    cases fetched
    simp [Negotiation.conclusion, Negotiation.answer, Negotiation.token?, given, found, failed,
      Except.bind]
  | equipped given found fetch =>
    cases fetched
    cases failed.symm.trans fetch

theorem lost_conclusion (course : s.Negotiates credentials q n) {realm : String}
    {service scope : Option String} {e : RegistryError}
    (challenged : n.Challenged (.bearer realm service scope))
    (failed : tokenUrl realm service scope = .error e) :
    n.fetch = none ∧ n.retry = none ∧ n.conclusion = .error e := by
  have met := Negotiation.challenged_iff.mp challenged
  cases course with
  | unchallenged given | unknown given | known given => cases given.symm.trans met
  | lost given found =>
    simp [Negotiation.conclusion, Negotiation.answer, Negotiation.token?, met, failed, Except.bind]
  | refused given found | equipped given found =>
    cases given.symm.trans met
    cases failed.symm.trans found

theorem final (course : s.Negotiates credentials q n) {a : Attempt} (tried : n.retry = some a) :
    n.conclusion = (a.answer n.inquiry.operation).bind (·.checked n.inquiry.operation) := by
  cases course with
  | unchallenged | unknown | lost | refused => cases tried
  | known given =>
    cases tried
    simp [Negotiation.conclusion, Negotiation.answer, Negotiation.token?, given]
  | equipped given found fetch =>
    cases tried
    simp [Negotiation.conclusion, Negotiation.answer, Negotiation.token?, given, found, fetch]

theorem settled (course : s.Negotiates credentials q n) (untried : n.retry = none)
    (free : ∀ realm service scope, ¬ n.Challenged (.bearer realm service scope)) :
    n.conclusion = (n.first.answer n.inquiry.operation).bind (·.checked n.inquiry.operation) := by
  cases course with
  | unchallenged given | unknown given =>
    simp [Negotiation.conclusion, Negotiation.answer, Negotiation.token?, given]
  | known | equipped => cases untried
  | lost given | refused given =>
    exact absurd (Negotiation.challenged_iff.mpr given) (free _ _ _)

end Session.Negotiates

theorem Session.orderly_negotiation (s : Session) (credentials : Credentials) (q : Inquiry) :
    (s.negotiation credentials q).Orderly credentials := by
  have course := s.negotiates_negotiation credentials q
  exact {
    bounded := ⟨rfl, by simp only [Negotiation.tries]; cases (s.negotiation credentials q).retry <;> simp⟩
    same := course.same
    asked := course.asked
    repeated := course.repeated
    refused := fun _ _ fetched failed => course.refused_conclusion fetched failed
    lost := fun _ _ _ _ challenged failed => course.lost_conclusion challenged failed
    final := fun _ tried => course.final tried
    settled := course.settled }

namespace RegistryClient

open Session

/-! ## Calls -/

theorem orderly_of_course {credentials : Credentials} {s s' : Session} {ns : List Negotiation}
    (course : Course credentials s ns s') {n : Negotiation} (member : n ∈ ns) :
    n.Orderly credentials := by
  obtain ⟨before, later, rfl⟩ := List.append_of_mem member
  obtain ⟨m, -, -, own, -⟩ := course.split
  rw [own]
  exact m.orderly_negotiation credentials n.inquiry

variable (c : RegistryClient)

/-- A call begins with its inquiry, if there is an address for it. -/
theorem head_negotiations (s : Session) (call : Call) :
    (c.negotiations s call).head?.map (·.inquiry) = (c.inquiry? call).toOption := by
  have single : (c.negotiated s (c.inquiry? call)).head?.map (·.inquiry) =
      (c.inquiry? call).toOption := by
    cases c.inquiry? call with
    | error e => rfl
    | ok q => exact congrArg some (s.inquiry_negotiation c.credentials q)
  cases call with
  | catalogPage | lookup | removal => exact single
  | tagList repository =>
    rw [negotiations, tagNegotiations, inquiry?]
    obtain ⟨result, -⟩ := (c.asks_tagPage repository none s).run
    cases address : c.tagsUrl repository none with
    | error e =>
      rw [address] at result
      rcases ran : (c.tagPage repository none).run s with ⟨e' | page, s'⟩
      · rfl
      · rw [ran] at result
        cases result
    | ok url => exact congrArg some (s.inquiry_negotiation c.credentials _)

/-- A call goes on to another inquiry only for the next page of tags, after a success that names it. -/
theorem link_negotiations {s : Session} {call : Call} {before later : List Negotiation}
    {n n' : Negotiation} (split : c.negotiations s call = before ++ n :: n' :: later) :
    ∃ repository response next, call = .tagList repository ∧ n.conclusion = .ok response ∧
      nextLink? response = some next ∧
      (c.cursorUrl next).map (tagsInquiry repository) = .ok n'.inquiry := by
  -- A call of one inquiry has no two negotiations.
  have alone : c.negotiated s (c.inquiry? call) ≠ before ++ n :: n' :: later := by
    intro same
    have count := congrArg List.length same
    cases asks : c.inquiry? call <;> simp [asks, negotiated] at count
    omega
  cases call with
  | catalogPage | lookup | removal => exact absurd split alone
  | tagList repository =>
    have pages := c.pages_tagNegotiations repository (s.left + 1) none s
    change Pages c repository none (c.negotiations s (.tagList repository)) at pages
    rw [split] at pages
    obtain ⟨response, next, concluded, linked, address⟩ := pages.link
    exact ⟨repository, response, next, rfl, concluded, linked, address⟩

/-- Whatever the other side answers: the requests of a call are those of its negotiations; these are
    orderly, each of them but the first follows a success that names the next page, and none fails
    without failing the call.  Redirections that are followed belong to the request that they are of
    (`Transport.send`). -/
theorem exchange_bounded (s : Session) (call : Call) :
    ((c.call call).run s).2.transport.requests =
      s.transport.requests ++
        s.transport.arrivals ((c.negotiations s call).flatMap Negotiation.attempts) ∧
    (c.negotiations s call).head?.map (·.inquiry) = (c.inquiry? call).toOption ∧
    (∀ before n n' later, c.negotiations s call = before ++ n :: n' :: later →
      ∃ repository response next, call = .tagList repository ∧ n.conclusion = .ok response ∧
        nextLink? response = some next ∧
        (c.cursorUrl next).map (tagsInquiry repository) = .ok n'.inquiry) ∧
    ∀ n ∈ c.negotiations s call, n.Orderly c.credentials ∧
      ∀ e, n.conclusion = .error e → ((c.call call).run s).1 = .error e := by
  have course := c.course_call s call
  refine ⟨course.carries.requests, c.head_negotiations s call, ?_, ?_⟩
  · intro before n n' later split
    exact c.link_negotiations split
  · intro n member
    exact ⟨orderly_of_course course member, fun e => fails_of_negotiations member⟩

/-- A reply that wants a token of a service, and one that holds a text. -/
def wanting : Reply :=
  .response ⟨⟨401⟩, [("WWW-Authenticate", Text.Utf8.encode "Bearer realm=\"http://t/\"".toList)],
    [], true⟩

def holding (text : String) : Reply := .response ⟨⟨200⟩, [], Text.Utf8.encode text.toList, true⟩

/-- A registry that does not let anybody in, and a token service that serves everybody. -/
def suspicious : Session :=
  .start ⟨true, [wanting, holding "[\"one\",null]", wanting, holding "[\"two\",null]"], [], [],
    false⟩

def namedClient : RegistryClient :=
  ⟨"http://r", ⟨Url.http, some ⟨[], none, .domain ['r'], none⟩, .segments [[]], none, none⟩,
    ⟨some "u", some "p"⟩, 100⟩

/-- However long it would go on with challenges, three requests are all it gets. -/
theorem exchange_bounded_suspicious :
    ((namedClient.call (.lookup "app" "v1")).run suspicious).2.transport.requests.length = 3 ∧
    ∀ n ∈ namedClient.negotiations suspicious (.lookup "app" "v1"),
      n.Orderly namedClient.credentials ∧ n.fetch.isSome ∧ n.retry.isSome := by
  obtain ⟨came, -, -, orderly⟩ := namedClient.exchange_bounded suspicious (.lookup "app" "v1")
  have count : (suspicious.transport.arrivals ((namedClient.negotiations suspicious
      (.lookup "app" "v1")).flatMap Negotiation.attempts)).length = 3 := by decide +kernel
  have tried : ∀ n ∈ namedClient.negotiations suspicious (.lookup "app" "v1"),
      n.fetch.isSome ∧ n.retry.isSome := by decide +kernel
  refine ⟨?_, fun n member => ⟨(orderly n member).1, tried n member⟩⟩
  rw [came, List.length_append, count]
  rfl

end RegistryClient

end RegistryCache
