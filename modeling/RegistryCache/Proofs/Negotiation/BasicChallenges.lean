import RegistryCache.Proofs.Negotiation.Tokens

/-! # Challenges to give name and password

When a registry wants name and password, and they are known, the request is repeated.  What it carries
then is chosen without a look at the challenge, by the rule that chose it before: the token that is
known for the scope, or else name and password.  So the registry gets the request again that it has
just refused, and it gets name and password if no token is known
(`RegistryClient.basic_challenge_repeats`).
-/

namespace RegistryCache

open Session

/-- A token is never taken for name and password. -/
theorem Credentials.carried?_eq_basic_iff {c : Credentials} {username : String}
    (named : c.username = some username) (token : Option String) :
    c.carried? token = some (basicAuthorization username c.password) ↔ token = none := by
  cases token with
  | none => simp [carried?, named]
  | some token =>
    have scheme : "Bearer " ++ token ≠ basicAuthorization username c.password := by
      intro same
      simpa [basicAuthorization] using congrArg String.toList same
    simpa [carried?, toString] using scheme

namespace Session

theorem authorization_of_request {method : Method} {url : Url} {authorization : Option String}
    {accept : String} {r : Request} (made : request method url authorization accept = .ok r) :
    r.authorization = (splitCredentials url).2.or authorization := by
  unfold request at made
  split at made
  · cases made
  · dsimp only at made
    split_ifs at made
    cases made
    rfl

/-- Trying again makes the same request: no token has come in between. -/
theorem tried_beyond (s : Session) (credentials : Credentials) (q : Inquiry) (a : Attempt) :
    (s.beyond a).tried credentials q =
      .across (a.after s.transport) (s.tried credentials q).request := by
  rw [tried, tried, Attempt.request_across]
  rfl

theorem Negotiates.repeats {s : Session} {credentials : Credentials} {q : Inquiry} {n : Negotiation}
    (course : s.Negotiates credentials q n) (named : credentials.username.isSome = true)
    (challenged : n.Challenged .basic) :
    ∃ request first second, n.first = .sent request first ∧ n.fetch = none ∧
      n.retry = some (.sent request second) := by
  have met := Negotiation.challenged_iff.mp challenged
  cases course with
  | unchallenged given | lost given | refused given | equipped given => cases given.symm.trans met
  | unknown given anonymous => cases anonymous.symm.trans named
  | known given =>
    obtain ⟨request, response, value, sent, -⟩ := challenged
    have again : (s.beyond (s.tried credentials q)).tried credentials q =
        .across ((s.tried credentials q).after s.transport) (.ok request) := by
      rw [tried_beyond, show s.tried credentials q = _ from sent, Attempt.request]
    exact ⟨request, .ok response, _, sent, rfl, congrArg some again⟩

end Session

namespace RegistryClient

/-- Whatever was done before, and whatever the other side has answered: a request that is challenged
    to bring name and password is sent once more as it was, if there is a name.  If its address has no
    credentials of its own, it carries name and password exactly if no token was handed out before for
    its scope; otherwise it carries the last one. -/
theorem basic_challenge_repeats (c : RegistryClient) (t : Transport) (calls : List Call)
    {username : String} (named : c.credentials.username = some username)
    {before later : List Negotiation} {n : Negotiation}
    (split : c.history (.start t) calls = before ++ n :: later) (challenged : n.Challenged .basic) :
    let token := latestToken? before n.inquiry.scope
    t.Carries ((c.history (.start t) calls).flatMap Negotiation.attempts)
      (c.after (.start t) calls).transport ∧
    ∃ request first second, n.first = .sent request first ∧ n.fetch = none ∧
      n.retry = some (.sent request second) ∧
      request.authorization =
        (splitCredentials n.inquiry.url).2.or (c.credentials.carried? token) ∧
      (n.inquiry.url.Anonymous →
        (request.authorization = some (basicAuthorization username c.credentials.password) ↔
          token = none)) := by
  intro token
  have course := c.course_history (.start t) calls
  obtain ⟨first, -⟩ := c.carried_of_course course split
  obtain ⟨m, -, -, own, -⟩ := (split ▸ course).split
  have negotiates : m.Negotiates c.credentials n.inquiry n := by
    have negotiates := m.negotiates_negotiation c.credentials n.inquiry
    rwa [← own] at negotiates
  obtain ⟨request, refused, second, sent, unfetched, again⟩ :=
    negotiates.repeats (by rw [named]; rfl) challenged
  have fresh : token.or ((Session.start t).token? n.inquiry.scope) = token := by
    cases token <;> rfl
  rw [fresh, sent] at first
  have carried := authorization_of_request first.symm
  refine ⟨course.carries, request, refused, second, sent, unfetched, again, carried, ?_⟩
  intro anonymous
  rw [carried, anonymous.splitCredentials]
  exact c.credentials.carried?_eq_basic_iff named token

/-- A reply that wants name and password. -/
def demanding : Reply :=
  .response ⟨⟨401⟩, [("WWW-Authenticate", Text.Utf8.encode "Basic realm=\"r\"".toList)], [], true⟩

def manifest : Inquiry :=
  lookupInquiry "app" ⟨Url.http, some ⟨[], none, .domain ['r'], none⟩,
    .segments ["v2".toList, "app".toList, "manifests".toList, "v1".toList], none, none⟩

/-- A registry that nobody has handed out a token for, and that wants name and password. -/
def formal : Transport := ⟨true, [demanding, holding ""], [], [], false⟩

theorem basic_challenge_repeats_formal :
    ∃ n request second, namedClient.history (.start formal) [.lookup "app" "v1"] = [n] ∧
      n.Challenged .basic ∧ n.retry = some (.sent request second) ∧
      request.authorization = some "Basic dTpw" := by
  let n := (Session.start formal).negotiation namedClient.credentials manifest
  have single : namedClient.history (.start formal) [.lookup "app" "v1"] = [] ++ [n] := by
    decide +kernel
  have challenged : n.Challenged .basic := Negotiation.challenged_iff.mpr (by decide +kernel)
  have anonymous : n.inquiry.url.Anonymous := by
    rw [inquiry_negotiation]
    rintro a ⟨⟩
    exact ⟨rfl, rfl⟩
  have named : namedClient.credentials.username = some "u" := rfl
  obtain ⟨-, request, -, second, -, -, again, -, carried⟩ :=
    namedClient.basic_challenge_repeats formal [.lookup "app" "v1"] named single challenged
  refine ⟨n, request, second, single, challenged, again, ?_⟩
  rw [(carried anonymous).mpr rfl]
  decide +kernel

/-- A registry that has let a visitor in for a token, and wants name and password the next time. -/
def forgetful : Transport :=
  ⟨true, [wanting, holding "[\"one\",null]", holding "", demanding, holding ""], [], [], false⟩

/-- It gets the token instead, twice. -/
theorem forgetful_gets_token :
    let calls : List Call := [.lookup "app" "v1", .lookup "app" "v1"]
    (∃ before n request second, namedClient.history (.start forgetful) calls = before ++ [n] ∧
      n.Challenged .basic ∧ n.retry = some (.sent request second) ∧
      request.authorization = some "Bearer one") ∧
    (namedClient.after (.start forgetful) calls).transport.requests.map (·.authorization) =
      [some "Basic dTpw", some "Basic dTpw", some "Bearer one", some "Bearer one",
        some "Bearer one"] ∧
    namedClient.credentials.authorization? = some "Basic dTpw" := by
  intro calls
  let s := namedClient.after (.start forgetful) [.lookup "app" "v1"]
  let n := s.negotiation namedClient.credentials manifest
  refine ⟨⟨[(Session.start forgetful).negotiation namedClient.credentials manifest], n,
    ⟨.head, manifest.url, some "Bearer one", manifest.accept⟩, .ok ⟨⟨200⟩, [], [], true⟩, ?_,
    Negotiation.challenged_iff.mpr ?_, ?_, rfl⟩, ?_, ?_⟩ <;>
  decide +kernel

end RegistryClient

end RegistryCache
