import RegistryCache.Proofs.Negotiation.Basic
import RegistryCache.Proofs.Pagination.Replies

/-! # Sessions negotiate

What `Session.perform` does, effect by effect, is a negotiation (`Session.perform_comesTo`): the same
attempts in the same order, the same tokens kept, the same answer.  Reports are left out of account
(`Session.ComesTo`), since nothing depends on them.
-/

namespace RegistryCache

namespace Session

/-! ## What is done in sessions -/

/-- Something done in a session has a result and leads to a session, whatever is reported before and
    meanwhile. -/
def ComesTo (m : Exchange α) (s : Session) (r : Except RegistryError α) (s' : Session) : Prop :=
  ∀ before, ∃ reported,
    m.run { s with notices := before } = (r, { s' with notices := reported })

namespace ComesTo

variable {m : Exchange α} {f : α → Exchange β} {s s₁ s' : Session}

theorem bind {a : α} {r : Except RegistryError β} (first : ComesTo m s (.ok a) s₁)
    (second : ComesTo (f a) s₁ r s') : ComesTo (m >>= f) s r s' := by
  intro before
  obtain ⟨meanwhile, ran⟩ := first before
  obtain ⟨reported, goesOn⟩ := second meanwhile
  exact ⟨reported, by rw [run_bind, ran]; exact goesOn⟩

theorem bind_error {e : RegistryError} (first : ComesTo m s (.error e) s') :
    ComesTo (m >>= f) s (.error e) s' := by
  intro before
  obtain ⟨reported, ran⟩ := first before
  exact ⟨reported, by rw [run_bind, ran]⟩

theorem pure (a : α) (s : Session) : ComesTo (Pure.pure a) s (.ok a) s := fun before => ⟨before, rfl⟩

theorem throw (e : RegistryError) (s : Session) :
    ComesTo (α := α) (MonadExcept.throw e) s (.error e) s := fun before => ⟨before, rfl⟩

theorem lift (r : Except RegistryError α) (s : Session) : ComesTo (liftM r) s r s :=
  fun before => ⟨before, by cases r <;> rfl⟩

theorem report (level : Level) (text : String) (s : Session) :
    ComesTo (Session.report level text) s (.ok ()) s := fun _ => ⟨_, rfl⟩

end ComesTo

/-- Sending a request is an attempt at it. -/
theorem send_comesTo (method : Method) (url : Url) (authorization : Option String)
    (accept operation : String) (s : Session) :
    ComesTo (send method url authorization accept operation) s
      ((Attempt.across s.transport (request method url authorization accept)).answer operation)
      (s.beyond (.across s.transport (request method url authorization accept))) := by
  intro before
  refine ⟨before, ?_⟩
  cases made : request method url authorization accept with
  | error fault =>
    unfold send
    rw [made]
    rfl
  | ok request => exact run_send made { s with notices := before }

theorem answer_comesTo (response : Response) (s : Session) :
    ComesTo (do
      if !response.status.isSuccess then
        report .error
          s!"Token request failed with status {response.status.text}: {response.errorText}"
        throw ⟨.auth, s!"Token request failed with status: {response.status.text}"⟩
      match response.json?.bind TokenAnswer.ofJson? with
      | none => throw ⟨.parse, s!"Failed to parse token response: {undecodable}"⟩
      | some answer =>
        match answer.value? with
        | some token => return token
        | none => throw ⟨.auth, "Token response contained no token"⟩) s response.token s := by
  unfold Response.token
  cases response.status.isSuccess with
  | false => exact (ComesTo.report _ _ s).bind (ComesTo.throw _ s).bind_error
  | true =>
    cases response.json?.bind TokenAnswer.ofJson? with
    | none => exact .throw _ s
    | some answer =>
      dsimp only
      cases answer.value? with
      | none => exact .throw _ s
      | some token => exact .pure token s

variable (credentials : Credentials) (q : Inquiry) (s : Session)

/-- Asking for a token is an attempt to fetch it, at the address that the realm has for it. -/
theorem requestToken_comesTo (realm : String) (service scope : Option String) :
    ComesTo (requestToken credentials realm service scope) s
      ((tokenUrl realm service scope).bind fun url => (s.fetched credentials url).token)
      (match tokenUrl realm service scope with
      | .error _ => s
      | .ok url => s.beyond (s.fetched credentials url)) := by
  unfold requestToken
  cases tokenUrl realm service scope with
  | error e => exact (ComesTo.lift (.error e) s).bind_error
  | ok url =>
    refine (ComesTo.lift (.ok url) s).bind ((ComesTo.report _ _ s).bind ?_)
    have sent := send_comesTo .get url credentials.authorization? Request.anything "request" s
    change ComesTo _ s ((s.fetched credentials url).token) (s.beyond _)
    unfold Attempt.token fetched
    cases answered : (Attempt.across s.transport (request .get url credentials.authorization?
      Request.anything)).answer "request" with
    | error e => exact (answered ▸ sent).bind_error
    | ok response => exact (answered ▸ sent).bind (answer_comesTo response _)

/-- A challenge to bring a token is answered with one, or not at all. -/
theorem respond_bearer_comesTo (scope realm : String) (service tokenScope : Option String) :
    ComesTo (respond credentials scope (.bearer realm service tokenScope)) s
      ((tokenUrl realm service tokenScope).bind fun url =>
        (s.fetched credentials url).token.map fun _ => true)
      (match tokenUrl realm service tokenScope with
      | .error _ => s
      | .ok url =>
        match (s.fetched credentials url).token with
        | .error _ => s.beyond (s.fetched credentials url)
        | .ok token => (s.beyond (s.fetched credentials url)).keepToken scope token) := by
  have asked := requestToken_comesTo credentials s realm service tokenScope
  unfold respond
  cases found : tokenUrl realm service tokenScope with
  | error e => exact (found ▸ asked).bind_error
  | ok url =>
    rw [found] at asked
    dsimp only [Except.bind] at asked ⊢
    cases fetch : (s.fetched credentials url).token with
    | error e => exact (fetch ▸ asked).bind_error
    | ok token => exact (fetch ▸ asked).bind fun before => ⟨before, rfl⟩

theorem attempt_comesTo :
    ComesTo (attempt credentials q.scope q.operation q.method q.url q.accept) s
      ((s.tried credentials q).answer q.operation) (s.beyond (s.tried credentials q)) := by
  intro before
  exact send_comesTo _ _ _ _ _ s before

/-- A request that is not challenged is over. -/
theorem negotiate_unchallenged (calm : (s.tried credentials q).challenge? = none) :
    ComesTo (negotiate credentials q.scope q.operation q.method q.url q.accept) s
      ((s.tried credentials q).answer q.operation) (s.beyond (s.tried credentials q)) := by
  have first := attempt_comesTo credentials q s
  unfold negotiate
  unfold Attempt.challenge? at calm
  unfold Attempt.answer at first ⊢
  cases met : (s.tried credentials q).outcome with
  | error fault => exact (met ▸ first).bind_error
  | ok response =>
    rw [met] at calm first
    refine first.bind ?_
    rw [show challenge? response = none from calm]
    exact .pure response _

section Challenged

variable {credentials q s} {challenge : Challenge} {s₁ : Session}
  (given : (s.tried credentials q).challenge? = some challenge)

include given

/-- A challenge is answered, and if that does any good the request is repeated. -/
theorem negotiate_challenged :
    ∃ response, (s.tried credentials q).answer q.operation = .ok response ∧
      ∀ r s', ComesTo (do
          if ← respond credentials q.scope challenge then
            attempt credentials q.scope q.operation q.method q.url q.accept
          else return response) (s.beyond (s.tried credentials q)) r s' →
        ComesTo (negotiate credentials q.scope q.operation q.method q.url q.accept) s r s' := by
  have first := attempt_comesTo credentials q s
  unfold Attempt.challenge? at given
  unfold Attempt.answer at first ⊢
  cases met : (s.tried credentials q).outcome with
  | error fault =>
    -- Without a response there is no challenge.
    rw [met] at given
    cases given
  | ok response =>
    rw [met] at given first
    refine ⟨response, rfl, fun r s' goesOn => ?_⟩
    unfold negotiate
    refine first.bind ?_
    rw [show challenge? response = some challenge from given]
    exact (ComesTo.report _ _ _).bind goesOn

theorem negotiate_of_failure {e : RegistryError}
    (responded : ComesTo (respond credentials q.scope challenge) (s.beyond (s.tried credentials q))
      (.error e) s₁) :
    ComesTo (negotiate credentials q.scope q.operation q.method q.url q.accept) s (.error e) s₁ := by
  obtain ⟨response, -, goesOn⟩ := negotiate_challenged given
  exact goesOn _ _ responded.bind_error

theorem negotiate_of_false
    (responded : ComesTo (respond credentials q.scope challenge) (s.beyond (s.tried credentials q))
      (.ok false) s₁) :
    ComesTo (negotiate credentials q.scope q.operation q.method q.url q.accept) s
      ((s.tried credentials q).answer q.operation) s₁ := by
  obtain ⟨response, answered, goesOn⟩ := negotiate_challenged given
  rw [answered]
  exact goesOn _ _ (responded.bind (ComesTo.pure response s₁))

theorem negotiate_of_true
    (responded : ComesTo (respond credentials q.scope challenge) (s.beyond (s.tried credentials q))
      (.ok true) s₁) :
    ComesTo (negotiate credentials q.scope q.operation q.method q.url q.accept) s
      ((s₁.tried credentials q).answer q.operation) (s₁.beyond (s₁.tried credentials q)) := by
  obtain ⟨response, -, goesOn⟩ := negotiate_challenged given
  exact goesOn _ _ (responded.bind (attempt_comesTo credentials q s₁))

end Challenged

/-- `Session.negotiation` tells how a negotiation goes. -/
theorem negotiate_comesTo :
    ComesTo (negotiate credentials q.scope q.operation q.method q.url q.accept) s
      (s.negotiation credentials q).answer (s.past (s.negotiation credentials q)) := by
  have course := s.negotiates_negotiation credentials q
  generalize s.negotiation credentials q = n at course
  -- One case for each way to negotiate; the challenge decides which part of the program runs.
  have bearer (realm : String) (service scope : Option String) :=
    respond_bearer_comesTo credentials (s.beyond (s.tried credentials q)) q.scope realm service scope
  unfold past Negotiation.answer Negotiation.obtained? Negotiation.token?
  cases course with
  | unchallenged calm =>
    rw [calm]
    exact negotiate_unchallenged credentials q s calm
  | unknown given anonymous =>
    rw [given]
    exact negotiate_of_false given (anonymous ▸ ComesTo.pure credentials.username.isSome _)
  | known given named =>
    rw [given]
    exact negotiate_of_true given (named ▸ ComesTo.pure credentials.username.isSome _)
  | @lost realm service scope e given found =>
    have responded := bearer realm service scope
    rw [found] at responded
    simp only [given, found]
    exact negotiate_of_failure given responded
  | @refused realm service scope url e given found fetch =>
    have responded := bearer realm service scope
    simp only [found, Except.bind, fetch] at responded
    simp only [given, found, Option.map, fetch]
    exact negotiate_of_failure given responded
  | @equipped realm service scope url token given found fetch =>
    have responded := bearer realm service scope
    simp only [found, Except.bind, fetch] at responded
    simp only [given, found, Option.map, fetch]
    exact negotiate_of_true given responded

/-- `Session.perform` is a negotiation whose answer has to be a success. -/
theorem perform_comesTo :
    ComesTo (perform credentials q.scope q.operation q.method q.url q.accept) s
      (s.negotiation credentials q).conclusion (s.past (s.negotiation credentials q)) := by
  have negotiated := negotiate_comesTo credentials q s
  have own : (s.negotiation credentials q).inquiry = q := s.inquiry_negotiation credentials q
  unfold perform Negotiation.conclusion
  rw [own]
  cases answered : (s.negotiation credentials q).answer with
  | error e => exact (answered ▸ negotiated).bind_error
  | ok response =>
    refine (answered ▸ negotiated).bind ?_
    dsimp only [Except.bind, Response.checked]
    cases response.status.isSuccess with
    | false => exact .throw _ _
    | true => exact .pure response _

end Session

end RegistryCache
