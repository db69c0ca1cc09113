import RegistryCache.Proofs.Negotiation.Tokens

/-! # Tokens that fit no header

A token service may hand out any text.  The text is kept before anything is known of its use, and a
text that may not stand in a header keeps every later request of its scope from being made, so that no
answer can ever replace it.  Nothing else does that (`RegistryClient.sends_iff_token_fits`).
-/

namespace RegistryCache

open Session

/-! ## What fits -/

/-- The characters of base 64 may stand anywhere. -/
theorem Text.Base64.symbol_printable (n : Nat) :
    0x20 ≤ (symbol n).toNat ∧ (symbol n).toNat ≠ 0x7F := by
  have upper : ∀ n < 26, 0x20 ≤ (Char.ofNat ('A'.toNat + n)).toNat ∧
      (Char.ofNat ('A'.toNat + n)).toNat ≠ 0x7F := by decide
  have lower : ∀ n < 26, 0x20 ≤ (Char.ofNat ('a'.toNat + n)).toNat ∧
      (Char.ofNat ('a'.toNat + n)).toNat ≠ 0x7F := by decide
  have digit : ∀ n < 10, 0x20 ≤ (Char.ofNat ('0'.toNat + n)).toNat ∧
      (Char.ofNat ('0'.toNat + n)).toNat ≠ 0x7F := by decide
  unfold symbol
  split
  · exact upper n ‹_›
  · split
    · exact lower (n - 26) (by omega)
    · split
      · exact digit (n - 52) (by omega)
      · split <;> decide

theorem Text.Base64.encode_printable (bytes : List UInt8) :
    ∀ c ∈ encode bytes, 0x20 ≤ c.toNat ∧ c.toNat ≠ 0x7F := by
  fun_induction encode bytes with
  | case1 => simp
  | case2 a => simp [symbol_printable]
  | case3 a b => simp [symbol_printable]
  | case4 a b c rest n inductionHypothesis => simpa [symbol_printable] using inductionHypothesis

theorem fitsHeader_append (a b : String) : fitsHeader (a ++ b) = (fitsHeader a && fitsHeader b) := by
  simp [fitsHeader]

/-- Name and password always fit, whatever they are. -/
theorem fitsHeader_basicAuthorization (username : String) (password : Option String) :
    fitsHeader (basicAuthorization username password) = true := by
  rw [basicAuthorization, fitsHeader_append]
  have scheme : fitsHeader "Basic " = true := by decide +kernel
  have printable := Text.Base64.encode_printable
    (Text.Utf8.encode (username.toList ++ ':' :: (password.getD "").toList))
  rw [scheme, Bool.true_and, fitsHeader, String.toList_ofList, List.all_eq_true]
  intro c member
  simp [printable c member]

/-- So a header fits unless it holds a token that does not. -/
theorem Credentials.fits_carried (c : Credentials) (token : Option String) :
    (c.carried? token).all fitsHeader = token.all fitsHeader := by
  cases token with
  | some token =>
    have scheme : fitsHeader "Bearer " = true := by decide +kernel
    simp [carried?, toString, fitsHeader_append, scheme]
  | none => cases username : c.username <;> simp [carried?, username, fitsHeader_basicAuthorization]

def Url.Usable (u : Url) : Prop := u.hasHost = true ∧ isSendable (splitCredentials u).1 = true

theorem request_of_fits {method : Method} {url : Url} {authorization : Option String}
    {accept : String} (usable : url.Usable) (fits : authorization.all fitsHeader = true) :
    request method url authorization accept = .ok ⟨method, (splitCredentials url).1,
      (splitCredentials url).2.or authorization, accept⟩ := by
  simp [request, usable.1, usable.2, fits]

theorem request_of_unfit (method : Method) (url : Url) {authorization : Option String}
    (accept : String) (unfit : authorization.all fitsHeader = false) :
    ∃ fault, request method url authorization accept = .error fault ∧
      (url.hasHost = true → fault = .badHeader) := by
  unfold request
  by_cases hosted : url.hasHost = true <;> simp [hosted, unfit]

/-! ## Stuck scopes -/

namespace Session

variable {credentials : Credentials} {s s' : Session} {q : Inquiry} {token : String}

/-- With a token that does not fit nothing is sent. -/
theorem negotiation_of_unfit (credentials : Credentials) (known : s.token? q.scope = some token)
    (unfit : fitsHeader token = false) :
    ∃ fault, s.negotiation credentials q = ⟨q, .unsent fault, none, none⟩ ∧
      (q.url.hasHost = true → fault = .badHeader) := by
  have header : (credentials.carried? (s.token? q.scope)).all fitsHeader = false := by
    rw [credentials.fits_carried, known]
    exact unfit
  obtain ⟨fault, refused, bad⟩ := request_of_unfit q.method q.url q.accept header
  have first : s.tried credentials q = .unsent fault := by
    rw [tried, authorization_eq, refused]
    rfl
  refine ⟨fault, ?_, bad⟩
  unfold negotiation
  rw [first]
  rfl

/-- So no other token comes, whatever is done. -/
theorem Course.stuck {ns : List Negotiation} {scope : String} (course : Course credentials s ns s')
    (known : s.token? scope = some token) (unfit : fitsHeader token = false) :
    (∀ n ∈ ns, n.inquiry.scope = scope → ∃ fault, n.attempts = [.unsent fault]) ∧
      s'.token? scope = some token := by
  induction course with
  | done like =>
    refine ⟨fun n member => absurd member List.not_mem_nil, ?_⟩
    rw [Session.token?, like.2]
    exact known
  | @next s s₁ s' later q like rest inductionHypothesis =>
    have same : s₁.token? scope = some token := by
      rw [Session.token?, like.2]
      change (s.past (s.negotiation credentials q)).token? scope = some token
      rw [token?_past, inquiry_negotiation]
      -- A negotiation of the scope sends nothing and obtains nothing; others keep to their scopes.
      split
      · rename_i own
        subst own
        obtain ⟨fault, stuck, -⟩ := negotiation_of_unfit credentials known unfit
        rw [stuck]
        exact known
      · exact known
    obtain ⟨others, last⟩ := inductionHypothesis same
    refine ⟨?_, last⟩
    rintro n (_ | ⟨_, member⟩) own
    · rw [inquiry_negotiation] at own
      subst own
      obtain ⟨fault, stuck, -⟩ := negotiation_of_unfit credentials known unfit
      exact ⟨fault, by rw [stuck]; rfl⟩
    · exact others n member own

end Session

namespace RegistryClient

variable {c : RegistryClient} {s : Session} {call : Call} {q : Inquiry}

/-- A call for which there is an address begins to negotiate. -/
theorem negotiations_eq_cons (asks : c.inquiry? call = .ok q) :
    ∃ later, c.negotiations s call = s.negotiation c.credentials q :: later := by
  have head := c.head_negotiations s call
  have course := c.course_call s call
  rw [asks] at head
  cases listed : c.negotiations s call with
  | nil =>
    rw [listed] at head
    cases head
  | cons n later =>
    rw [listed] at head course
    have same : n.inquiry = q := by simpa [Except.toOption] using head
    exact ⟨later, by rw [course.cons.1, same]⟩

/-- With a token that does not fit a call fails, and nothing else happens. -/
theorem run_of_unfit {token : String} (asks : c.inquiry? call = .ok q)
    (hosted : q.url.hasHost = true) (known : s.token? call.scope = some token)
    (unfit : fitsHeader token = false) :
    ((c.call call).run s).1 = .error (TransportFault.badHeader.toError q.operation) ∧
      ((c.call call).run s).2.Like s := by
  obtain ⟨later, listed⟩ := negotiations_eq_cons (s := s) asks
  obtain ⟨fault, stuck, bad⟩ :=
    negotiation_of_unfit c.credentials (scope_of_inquiry asks ▸ known) unfit
  cases bad hosted
  rw [stuck] at listed
  have failed : (⟨q, .unsent .badHeader, none, none⟩ : Negotiation).conclusion =
      .error (TransportFault.badHeader.toError q.operation) := rfl
  refine ⟨fails_of_negotiations (listed ▸ List.mem_cons_self) failed, ?_⟩
  cases later with
  | nil =>
    have course := c.course_call s call
    rw [listed] at course
    obtain ⟨-, s₁, like, rest⟩ := course.cons
    exact rest.nil.trans like
  | cons n' later =>
    -- Another page would need a success.
    have split : c.negotiations s call = [] ++ _ :: n' :: later := listed
    obtain ⟨_, _, _, _, concluded, -⟩ := c.link_negotiations split
    cases failed.symm.trans concluded

/-- A call whose first request can be made brings a request to the other side. -/
theorem requests_lt_of_fits (asks : c.inquiry? call = .ok q) (usable : q.url.Usable)
    (online : s.transport.connects q.url = true)
    (fits : (s.token? call.scope).all fitsHeader = true) :
    s.transport.requests.length < ((c.call call).run s).2.transport.requests.length := by
  obtain ⟨later, listed⟩ := negotiations_eq_cons (s := s) asks
  have header : (c.credentials.carried? (s.token? q.scope)).all fitsHeader = true := by
    rw [c.credentials.fits_carried, scope_of_inquiry asks]
    exact fits
  have first := s.request_first c.credentials q
  rw [request_of_fits usable header] at first
  have scheme : (splitCredentials q.url).1.scheme = q.url.scheme := by
    unfold splitCredentials
    split
    · dsimp only
      split <;> rfl
    · rfl
  rw [(c.course_call s call).carries.requests, listed]
  cases tried : (s.negotiation c.credentials q).first with
  | unsent fault =>
    rw [tried] at first
    cases first
  | sent request outcome =>
    rw [tried] at first
    have own : request.url.scheme = q.url.scheme := by
      rw [Except.ok.inj first]
      exact scheme
    have reached : s.transport.connects request.url = true := by
      rw [Transport.connects, own]
      exact online
    simp [Transport.arrivals, Negotiation.attempts, tried, reached]

/-- After any calls, whatever the other side answered: a call for which there is a usable address
    brings a request to the other side unless the token for its scope fits no header.  If it does not
    fit, every such call fails for ever, and nothing is sent. -/
theorem sends_iff_token_fits (c : RegistryClient) (t : Transport) (calls : List Call) {call : Call}
    {q : Inquiry} (asks : c.inquiry? call = .ok q) (usable : q.url.Usable)
    (online : t.connects q.url = true) :
    ((c.after (.start t) calls).transport.requests.length <
        ((c.call call).run (c.after (.start t) calls)).2.transport.requests.length ↔
      (latestToken? (c.history (.start t) calls) call.scope).all fitsHeader = true) ∧
    ((latestToken? (c.history (.start t) calls) call.scope).all fitsHeader = false →
      ∀ further,
        ((c.call call).run (c.after (.start t) (calls ++ further))).1 =
            .error (TransportFault.badHeader.toError q.operation) ∧
        ((c.call call).run (c.after (.start t) (calls ++ further))).2.Like
          (c.after (.start t) (calls ++ further))) := by
  have course := c.course_history (.start t) calls
  have known : (c.after (.start t) calls).token? call.scope =
      latestToken? (c.history (.start t) calls) call.scope := by
    rw [course.token?]
    cases latestToken? (c.history (.start t) calls) call.scope <;> rfl
  have stuck (unfit : (latestToken? (c.history (.start t) calls) call.scope).all fitsHeader = false)
      (further : List Call) :
      ((c.call call).run (c.after (.start t) (calls ++ further))).1 =
          .error (TransportFault.badHeader.toError q.operation) ∧
        ((c.call call).run (c.after (.start t) (calls ++ further))).2.Like
          (c.after (.start t) (calls ++ further)) := by
    rw [← known] at unfit
    cases held : (c.after (.start t) calls).token? call.scope with
    | none =>
      rw [held] at unfit
      cases unfit
    | some token =>
      rw [held] at unfit
      have last := ((c.course_history (c.after (.start t) calls) further).stuck held unfit).2
      rw [after, List.foldl_append]
      exact run_of_unfit asks usable.1 last unfit
  refine ⟨⟨fun more => ?_, fun fits => ?_⟩, stuck⟩
  · cases fits : (latestToken? (c.history (.start t) calls) call.scope).all fitsHeader with
    | true => rfl
    | false =>
      -- A request that came would have changed the transport.
      have like := (stuck fits []).2
      rw [List.append_nil] at like
      rw [like.1] at more
      exact absurd more (Nat.lt_irrefl _)
  · rw [← known] at fits
    exact requests_lt_of_fits asks usable ((course.carries.connects q.url).trans online) fits

def listing : Inquiry :=
  catalogInquiry ⟨Url.http, some ⟨[], none, .domain ['r'], none⟩,
    .segments ["v2".toList, "_catalog".toList], some "n=100".toList, none⟩

/-- After a token that was of use the catalog is still asked for. -/
theorem sends_iff_token_fits_trusting :
    namedClient.inquiry? (.catalogPage none) = .ok listing ∧ listing.url.Usable ∧
    trusting.connects listing.url = true ∧
    (namedClient.after (.start trusting) visits).transport.requests.length <
      ((namedClient.call (.catalogPage none)).run
        (namedClient.after (.start trusting) visits)).2.transport.requests.length := by
  have asks : namedClient.inquiry? (.catalogPage none) = .ok listing := by decide +kernel
  have usable : listing.url.Usable := ⟨by decide +kernel, by decide +kernel⟩
  have online : trusting.connects listing.url = true := by decide +kernel
  refine ⟨asks, usable, online, ?_⟩
  rw [(namedClient.sends_iff_token_fits trusting visits asks usable online).1]
  decide +kernel

/-- A registry that wants a token, and a token service that hands out one in two lines. -/
def careless : Transport :=
  ⟨true, [wanting, holding "[\"a\\nb\",null]", holding "[[\"app\"]]"], [], [], false⟩

/-- The token of two lines is kept, and the catalog is not asked for again, although its address is
    usable and the registry is there. -/
theorem careless_sticks :
    namedClient.inquiry? (.catalogPage none) = .ok listing ∧ listing.url.Usable ∧
    careless.connects listing.url = true ∧
    (namedClient.after (.start careless) [.catalogPage none]).transport.replies.length = 1 ∧
    ((namedClient.call (.catalogPage none)).run
        (namedClient.after (.start careless) [.catalogPage none])).2.transport.requests =
      (namedClient.after (.start careless) [.catalogPage none]).transport.requests := by
  refine ⟨?_, ⟨?_, ?_⟩, ?_, ?_, ?_⟩ <;> decide +kernel

end RegistryClient

end RegistryCache
