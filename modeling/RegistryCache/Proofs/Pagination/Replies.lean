import RegistryCache.Http.Client

/-! # What requests use up

Every request that is answered with success has used up a reply, and nothing that a session does brings
replies back.  So there are no more pages of tags than there are replies, and the bound under which
`RegistryClient.tagList` reads them is never reached (`RegistryClient.run_tagPages_eq`).
-/

namespace RegistryCache

/-! ## Transport -/

theorem Transport.send_replies_le (t : Transport) (request : Request) :
    (t.send request).2.replies.length ≤ t.replies.length := by
  unfold send
  split
  · rcases t.replies with - | ⟨reply, rest⟩
    · simp
    · cases reply <;> simp
  · exact Nat.le_refl _

/-- Once the replies are used up nothing is a success. -/
theorem Transport.send_replies_lt {t : Transport} {request : Request} {response : Response}
    (answered : (t.send request).1 = .ok response) (success : response.status.isSuccess = true) :
    (t.send request).2.replies.length < t.replies.length := by
  unfold send at answered ⊢
  split at answered
  · rename_i connects
    rw [if_pos connects]
    cases ready : t.replies with
    | nil =>
      simp only [ready, Except.ok.injEq] at answered
      subst answered
      have status : (arriving request.method t.exhausted).status = ⟨404⟩ := by
        unfold arriving
        split <;> rfl
      rw [status] at success
      cases success
    | cons reply rest => cases reply <;> simp
  · cases answered

namespace Session

def left (s : Session) : Nat := s.transport.replies.length

/-- Whatever comes of it, no reply is brought back. -/
def NeverAdds (m : Exchange α) : Prop := ∀ s, (m.run s).2.left ≤ s.left

/-- A result of this kind has used up a reply. -/
def Spends (P : α → Prop) (m : Exchange α) : Prop :=
  ∀ s a s', m.run s = (.ok a, s') → P a → s'.left < s.left

/-! ## Composition -/

theorem run_bind (m : Exchange α) (f : α → Exchange β) (s : Session) :
    (m >>= f).run s = match m.run s with
      | (.ok a, s') => (f a).run s'
      | (.error e, s') => (.error e, s') := by
  change (m.run >>= ExceptT.bindCont f) s = _
  change ExceptT.bindCont f (m.run s).1 (m.run s).2 = _
  rcases m.run s with ⟨_ | _, _⟩ <;> rfl

theorem neverAdds_pure (a : α) : NeverAdds (pure a) := fun _ => Nat.le_refl _

theorem neverAdds_throw (e : RegistryError) : NeverAdds (throw e : Exchange α) :=
  fun _ => Nat.le_refl _

theorem neverAdds_get : NeverAdds (get : Exchange Session) := fun _ => Nat.le_refl _

theorem neverAdds_report (level : Level) (text : String) : NeverAdds (report level text) :=
  fun _ => Nat.le_refl _

theorem NeverAdds.le_of_run {m : Exchange α} {s s' : Session} {r : Except RegistryError α}
    (never : NeverAdds m) (result : m.run s = (r, s')) : s'.left ≤ s.left := by
  have fewer := never s
  rwa [result] at fewer

theorem NeverAdds.bind {m : Exchange α} {f : α → Exchange β} (first : NeverAdds m)
    (second : ∀ a, NeverAdds (f a)) : NeverAdds (m >>= f) := by
  intro s
  rw [run_bind]
  rcases result : m.run s with ⟨e | a, s'⟩
  · exact first.le_of_run result
  · exact Nat.le_trans (second a s') (first.le_of_run result)

/-- What is spent last is spent. -/
theorem NeverAdds.bind_spends {P : β → Prop} {m : Exchange α} {f : α → Exchange β}
    (first : NeverAdds m) (second : ∀ a, Spends P (f a)) : Spends P (m >>= f) := by
  intro s b s₂ result holds
  rw [run_bind] at result
  rcases middle : m.run s with ⟨e | a, s₁⟩
  · rw [middle] at result
    cases result
  · rw [middle] at result
    exact Nat.lt_of_lt_of_le (second a s₁ b s₂ result holds) (first.le_of_run middle)

/-- What is spent first stays spent. -/
theorem Spends.bind {P : β → Prop} {m : Exchange α} {f : α → Exchange β}
    (first : Spends (fun _ => True) m) (second : ∀ a, NeverAdds (f a)) : Spends P (m >>= f) := by
  intro s b s₂ result _
  rw [run_bind] at result
  rcases middle : m.run s with ⟨e | a, s₁⟩
  · rw [middle] at result
    cases result
  · rw [middle] at result
    exact Nat.lt_of_le_of_lt ((second a).le_of_run result) (first s a s₁ middle trivial)

theorem neverAdds_lift (r : Except RegistryError α) : NeverAdds (liftM r : Exchange α) := by
  intro s
  cases r <;> exact Nat.le_refl _

/-! ## One request -/

variable {method : Method} {url : Url} {authorization : Option String}
  {credentials : Credentials} {scope operation accept : String}

/-- A request that can be made is sent, and what came of it is the answer. -/
theorem run_send {request : Request}
    (made : Session.request method url authorization accept = .ok request) (s : Session) :
    (send method url authorization accept operation).run s =
      ((s.transport.send request).1.mapError (·.toError operation),
        { s with transport := (s.transport.send request).2 }) := by
  have got : (get : Exchange Session).run s = (.ok s, s) := rfl
  unfold send
  rw [made]
  dsimp only
  rw [run_bind, got]
  dsimp only
  rcases s.transport.send request with ⟨fault | response, transport⟩ <;> rfl

theorem neverAdds_send : NeverAdds (send method url authorization accept operation) := by
  intro s
  cases made : request method url authorization accept with
  | error fault =>
    unfold send
    rw [made]
    exact Nat.le_refl _
  | ok request =>
    rw [run_send made]
    exact s.transport.send_replies_le request

theorem spends_send :
    Spends (·.status.isSuccess = true) (send method url authorization accept operation) := by
  intro s response s' result success
  cases made : request method url authorization accept with
  | error fault =>
    unfold send at result
    rw [made] at result
    cases result
  | ok request =>
    rw [run_send made] at result
    cases answered : (s.transport.send request).1 with
    | error fault =>
      rw [answered] at result
      cases result
    | ok arrived =>
      rw [answered] at result
      cases result
      exact Transport.send_replies_lt answered success

theorem neverAdds_attempt : NeverAdds (attempt credentials scope operation method url accept) :=
  neverAdds_get.bind fun _ => neverAdds_send

theorem spends_attempt :
    Spends (·.status.isSuccess = true) (attempt credentials scope operation method url accept) :=
  neverAdds_get.bind_spends fun _ => spends_send

/-! ## Challenges -/

theorem neverAdds_answer (response : Response) :
    NeverAdds (match response.json?.bind TokenAnswer.ofJson? with
      | none => throw ⟨.parse, s!"Failed to parse token response: {undecodable}"⟩
      | some answer =>
        match answer.value? with
        | some token => pure token
        | none => throw ⟨.auth, "Token response contained no token"⟩ : Exchange String) := by
  split
  · exact neverAdds_throw _
  · split
    · exact neverAdds_pure _
    · exact neverAdds_throw _

theorem neverAdds_keepToken (scope token : String) :
    NeverAdds (modify (·.keepToken scope token) : Exchange Unit) := fun _ => Nat.le_refl _

theorem neverAdds_requestToken {realm : String} {service tokenScope : Option String} :
    NeverAdds (requestToken credentials realm service tokenScope) := by
  unfold requestToken
  refine (neverAdds_lift _).bind fun url => (neverAdds_report _ _).bind fun _ =>
    neverAdds_send.bind fun response => ?_
  dsimp only
  split
  · exact (neverAdds_report _ _).bind fun _ => (neverAdds_throw _).bind fun _ => neverAdds_answer _
  · exact neverAdds_answer _

theorem neverAdds_respond {challenge : Challenge} :
    NeverAdds (respond credentials scope challenge) := by
  cases challenge with
  | basic => exact neverAdds_pure _
  | bearer realm service tokenScope =>
    exact neverAdds_requestToken.bind fun token => (neverAdds_keepToken scope token).bind fun _ =>
      neverAdds_pure _

theorem not_isSuccess_of_challenge {response : Response} {challenge : Challenge}
    (challenged : challenge? response = some challenge) : ¬ response.status.isSuccess = true := by
  unfold challenge? at challenged
  split at challenged
  · rename_i unauthorized
    have code : response.status.code = 401 := by
      simpa [Status.isUnauthorized] using unauthorized
    simp [Status.isSuccess, code]
  · cases challenged

theorem neverAdds_negotiate : NeverAdds (negotiate credentials scope operation method url accept) := by
  unfold negotiate
  refine neverAdds_attempt.bind fun response => ?_
  split
  · exact neverAdds_pure _
  · refine (neverAdds_report _ _).bind fun _ => neverAdds_respond.bind fun again => ?_
    cases again
    · exact neverAdds_pure _
    · exact neverAdds_attempt

theorem spends_negotiate :
    Spends (·.status.isSuccess = true)
      (negotiate credentials scope operation method url accept) := by
  intro s response s' result success
  unfold negotiate at result
  rw [run_bind] at result
  rcases first : (attempt credentials scope operation method url accept).run s with ⟨e | before, s₁⟩
  · rw [first] at result
    cases result
  · rw [first] at result
    dsimp only at result
    cases challenged : challenge? before with
    | none =>
      rw [challenged] at result
      cases result
      exact spends_attempt s response s' first success
    | some challenge =>
      rw [challenged] at result
      -- the answer that was challenged is no success, so the one that counts is the second one
      have again : Spends (·.status.isSuccess = true) (do
          report .detail s!"Authentication challenge for {operation}: {challenge.description}"
          if ← respond credentials scope challenge then
            attempt credentials scope operation method url accept
          else return before) := by
        refine (neverAdds_report _ _).bind_spends fun _ =>
          neverAdds_respond.bind_spends fun repeats => ?_
        cases repeats
        · intro s a s' result success
          cases result
          exact absurd success (not_isSuccess_of_challenge challenged)
        · exact spends_attempt
      exact Nat.lt_of_lt_of_le (again s₁ response s' result success)
        (neverAdds_attempt.le_of_run first)

theorem neverAdds_perform : NeverAdds (perform credentials scope operation method url accept) := by
  unfold perform
  refine neverAdds_negotiate.bind fun response => ?_
  split
  · exact neverAdds_pure _
  · exact neverAdds_throw _

theorem spends_perform :
    Spends (fun _ => True) (perform credentials scope operation method url accept) := by
  intro s response s' result _
  unfold perform at result
  rw [run_bind] at result
  rcases answered : (negotiate credentials scope operation method url accept).run s with
    ⟨e | arrived, s₁⟩
  · rw [answered] at result
    cases result
  · rw [answered] at result
    dsimp only at result
    split at result
    · rename_i success
      cases result
      exact spends_negotiate s response s' answered success
    · cases result

end Session

/-! ## Pages of tags -/

namespace RegistryClient

open Session

variable (c : RegistryClient) (repository : String)

theorem spends_tagPage (cursor : Option String) :
    Spends (fun _ => True) (c.tagPage repository cursor) := by
  unfold tagPage
  refine (neverAdds_lift _).bind_spends fun url => spends_perform.bind fun response => ?_
  split
  · exact (neverAdds_lift _).bind fun next => neverAdds_pure _
  · exact neverAdds_throw _

theorem run_tagPages_succ (bound : Nat) (cursor : Option String) (s : Session) :
    (c.tagPages repository (bound + 1) cursor).run s =
      match (c.tagPage repository cursor).run s with
      | (.ok (tags, some next), s') =>
        match (c.tagPages repository bound (some next)).run s' with
        | (.ok more, s'') => (.ok (tags ++ more), s'')
        | (.error e, s'') => (.error e, s'')
      | (.ok (tags, none), s') => (.ok tags, s')
      | (.error e, s') => (.error e, s') := by
  rw [tagPages, run_bind]
  rcases (c.tagPage repository cursor).run s with ⟨e | ⟨tags, next⟩, s'⟩
  · rfl
  · cases next with
    | none => rfl
    | some next =>
      dsimp only
      rw [run_bind]
      rcases (c.tagPages repository bound (some next)).run s' with ⟨e | more, s''⟩ <;> rfl

/-- A bound above the number of replies is as good as any other. -/
theorem run_tagPages_eq {m n : Nat} (cursor : Option String) (s : Session) (small : s.left < m)
    (large : s.left < n) :
    (c.tagPages repository m cursor).run s = (c.tagPages repository n cursor).run s := by
  induction m generalizing n cursor s with
  | zero => exact absurd small (Nat.not_lt_zero _)
  | succ m inductionHypothesis =>
    obtain ⟨n, rfl⟩ := Nat.exists_eq_succ_of_ne_zero (Nat.ne_zero_of_lt large)
    rw [run_tagPages_succ, run_tagPages_succ]
    rcases page : (c.tagPage repository cursor).run s with ⟨e | ⟨tags, next⟩, s'⟩
    · rfl
    · cases next with
      | none => rfl
      | some next =>
        -- the page has used up a reply, so both bounds still lie above what is left
        have spent := c.spends_tagPage repository cursor s _ s' page trivial
        have rest := inductionHypothesis (n := n) (some next) s' (by omega) (by omega)
        dsimp only
        rw [rest]

end RegistryClient

end RegistryCache
