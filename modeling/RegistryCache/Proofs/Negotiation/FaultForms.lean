import RegistryCache.Proofs.Negotiation.Resources
import RegistryCache.Proofs.Texts

/-! # How missing responses are worded

A request that gets no response fails its call with one of five wordings.  Silence and hosts out of reach
have wordings of their own; between the others the text of the fault decides, and the address is part of
that text.  So they are told apart by the names in addresses, and by nothing else
(`RegistryClient.form_follows_words`).
-/

namespace RegistryCache

/-! ## Forms -/

/-- The wordings of a fault. -/
inductive FaultForm where
  | timeout
  | connection
  | resolution
  | certificate
  | general
  deriving DecidableEq, Repr

namespace FaultForm

def kind : FaultForm → ErrorKind
  | .timeout => .timeout
  | .connection | .resolution | .certificate | .general => .network

def opening (operation : String) : FaultForm → String
  | .timeout => s!"{operation} timeout: "
  | .connection => s!"Connection error during {operation}: "
  | .resolution => s!"DNS resolution error for {operation}: "
  | .certificate => s!"TLS certificate error during {operation}: "
  | .general => s!"{operation} network error: "

/-- The failure of an operation, given the text of the fault. -/
def failure (operation text : String) (form : FaultForm) : RegistryError :=
  ⟨form.kind, form.opening operation ++ text⟩

end FaultForm

def Call.operation : Call → String
  | .catalogPage _ => "catalog listing"
  | .tagList _ => "tag listing"
  | .lookup _ _ => "manifest lookup"
  | .removal _ _ => "manifest deletion"

/-- Everything that a client sends requests for: its calls, and tokens. -/
def operations : List String :=
  ["catalog listing", "tag listing", "manifest lookup", "manifest deletion", "request"]

theorem Call.operation_mem (call : Call) : call.operation ∈ operations := by
  cases call <;> simp [operation, operations]

namespace FaultForm

/-- What the wording of an operation can begin with. -/
def initials : FaultForm → List Char
  | .timeout | .general => ['c', 't', 'm', 'r']
  | .connection => ['C']
  | .resolution => ['D']
  | .certificate => ['T']

theorem initial_of_opening {operation : String} (own : operation ∈ operations) (form : FaultForm) :
    ∃ c ∈ form.initials, (form.opening operation).toList.head? = some c := by
  have all : ∀ operation ∈ operations,
      (form.opening operation).toList.head? ∈ form.initials.map some := by
    cases form <;> decide +kernel
  obtain ⟨c, among, begins⟩ := List.mem_map.mp (all operation own)
  exact ⟨c, among, begins.symm⟩

/-- The failure of an operation shows its form. -/
theorem eq_of_failure {operation operation' text text' : String} {form form' : FaultForm}
    (own : operation ∈ operations) (own' : operation' ∈ operations)
    (same : form.failure operation text = form'.failure operation' text') : form = form' := by
  obtain ⟨c, among, begins⟩ := form.initial_of_opening own
  obtain ⟨c', among', begins'⟩ := form'.initial_of_opening own'
  have kinds : form.kind = form'.kind := congrArg RegistryError.kind same
  have first : c = c' := by
    have heads := congrArg (fun e => e.detail.toList.head?) same
    simpa [failure, List.head?_append, begins, begins'] using heads
  -- Said with lists, since there are finitely many characters and all of them would be tried.
  have apart : form.kind = form'.kind →
      form.initials.any (form'.initials.contains ·) = true → form = form' := by
    cases form <;> cases form' <;> decide
  refine apart kinds (List.any_eq_true.mpr ⟨c, among, ?_⟩)
  simpa [first] using among'

end FaultForm

/-! ## Words in addresses -/

/-- The words that a text is searched for, in order. -/
def loadedWords : List String := ["dns", "certificate"]

namespace TransportFault

/-- The address in the text of a fault. -/
def url? : TransportFault → Option Url
  | .unreachable url | .dropped url | .silent url | .badAddress url => some url
  | .badHeader => none

/-- Anything but silence and hosts out of reach. -/
def Residual : TransportFault → Prop
  | .silent _ | .unreachable _ => False
  | .dropped _ | .badAddress _ | .badHeader => True

/-- A word stands in the address of a fault. -/
def Names (fault : TransportFault) (word : String) : Prop :=
  ∃ url ∈ fault.url?, Text.Mentions url.text word

instance (fault : TransportFault) (word : String) : Decidable (fault.Names word) :=
  inferInstanceAs (Decidable (∃ url ∈ fault.url?, Text.Mentions url.text word))

/-- The first of the words that the address has. -/
def loaded? (fault : TransportFault) : Option String := loadedWords.find? (fault.Names ·)

def form (fault : TransportFault) : FaultForm :=
  match fault with
  | .silent _ => .timeout
  | .unreachable _ => .connection
  | .dropped _ | .badAddress _ | .badHeader =>
    if fault.Names "dns" then .resolution
    else if fault.Names "certificate" then .certificate
    else .general

/-- What the text of a fault begins with. -/
def front : TransportFault → String
  | .unreachable _ | .dropped _ | .silent _ => "error sending request for url "
  | .badAddress _ => "builder error for url "
  | .badHeader => "builder error"

theorem toList_text (fault : TransportFault) :
    fault.text.toList = fault.front.toList ++
      match fault.url? with
      | some url => '(' :: (url.text.toList ++ ')' :: [])
      | none => [] := by
  have sending : "error sending request for url (" = "error sending request for url " ++ "(" := by
    decide +kernel
  have building : "builder error for url (" = "builder error for url " ++ "(" := by decide +kernel
  have around (before url : String) : (before ++ "(" ++ url ++ ")").toList =
      before.toList ++ '(' :: (url.toList ++ ')' :: []) := by simp
  cases fault with
  | unreachable url | dropped url | silent url =>
    exact (congrArg (fun before => (before ++ url.text ++ ")").toList) sending).trans (around _ _)
  | badAddress url =>
    exact (congrArg (fun before => (before ++ url.text ++ ")").toList) building).trans (around _ _)
  | badHeader => exact (List.append_nil _).symm

/-- Only an address can bring such a word into the text of a fault. -/
theorem mentions_eq_true_iff {word : String} (loaded : word ∈ loadedWords) (fault : TransportFault) :
    fault.mentions word = true ↔ fault.Names word := by
  have separate : ∀ word ∈ loadedWords, '(' ∉ word.toList ∧ ')' ∉ word.toList ∧
      word.toList ≠ [] := by decide +kernel
  have fronts : ∀ word ∈ loadedWords, ¬ word.toList <:+: "error sending request for url ".toList ∧
      ¬ word.toList <:+: "builder error for url ".toList ∧
      ¬ word.toList <:+: "builder error".toList := by decide +kernel
  obtain ⟨opening, closing, solid⟩ := separate word loaded
  obtain ⟨sending, building, plain⟩ := fronts word loaded
  have absent : ¬ word.toList <:+: fault.front.toList := by
    cases fault with
    | unreachable | dropped | silent => exact sending
    | badAddress => exact building
    | badHeader => exact plain
  rw [mentions, Text.occursIn_eq_true_iff, toList_text, Names]
  cases fault.url? with
  | none => simpa using absent
  | some url =>
    dsimp only
    rw [Text.infix_append_cons_iff opening, Text.infix_append_cons_iff closing]
    simp [absent, solid, Text.Mentions]

/-- A fault fails an operation in its form. -/
theorem toError_eq (operation : String) (fault : TransportFault) :
    fault.toError operation = fault.form.failure operation fault.text := by
  have dns := mentions_eq_true_iff (show "dns" ∈ loadedWords by decide) fault
  have certificate := mentions_eq_true_iff (show "certificate" ∈ loadedWords by decide) fault
  cases fault with
  | silent url | unreachable url => rfl
  | dropped url | badAddress url | badHeader =>
    simp only [toError, form, dns, certificate]
    split_ifs <;> rfl

/-- What is left after silence and hosts out of reach goes by the first loaded word. -/
theorem form_of_residual {fault : TransportFault} (residual : fault.Residual) :
    fault.loaded? = some "dns" ∧ fault.form = .resolution ∨
      fault.loaded? = some "certificate" ∧ fault.form = .certificate ∨
      fault.loaded? = none ∧ fault.form = .general := by
  cases fault with
  | silent url | unreachable url => cases residual
  | dropped url | badAddress url | badHeader =>
    simp only [form, loaded?, loadedWords, List.find?_cons, List.find?_nil]
    split_ifs <;> simp [*]

variable {fault fault' : TransportFault}

theorem form_eq_general_iff (residual : fault.Residual) :
    fault.form = .general ↔ ∀ word ∈ loadedWords, ¬ fault.Names word := by
  have unloaded : fault.loaded? = none ↔ ∀ word ∈ loadedWords, ¬ fault.Names word := by
    simp [loaded?, List.find?_eq_none]
  rw [← unloaded]
  rcases form_of_residual residual with ⟨word, form⟩ | ⟨word, form⟩ | ⟨word, form⟩ <;>
  simp [word, form]

theorem form_eq_form_iff (residual : fault.Residual) (residual' : fault'.Residual) :
    fault.form = fault'.form ↔ fault.loaded? = fault'.loaded? := by
  rcases form_of_residual residual with ⟨word, form⟩ | ⟨word, form⟩ | ⟨word, form⟩ <;>
  rcases form_of_residual residual' with ⟨word', form'⟩ | ⟨word', form'⟩ | ⟨word', form'⟩ <;>
  simp [word, form, word', form']

end TransportFault

theorem Attempt.answer_of_fault {a : Attempt} {fault : TransportFault}
    (failed : a.outcome = .error fault) (operation : String) :
    a.answer operation = .error (fault.form.failure operation fault.text) := by
  rw [answer, failed, ← fault.toError_eq]
  rfl

/-! ## Faults of calls -/

/-- The attempts of a negotiation, each with the operation that it is part of. -/
def Negotiation.steps (n : Negotiation) : List (String × Attempt) :=
  (n.inquiry.operation, n.first) ::
    (n.fetch.toList.map (("request", ·)) ++ n.retry.toList.map ((n.inquiry.operation, ·)))

/-- A failed attempt fails its negotiation. -/
theorem Negotiation.Orderly.conclusion_of_fault {credentials : Credentials} {n : Negotiation}
    (orderly : n.Orderly credentials) {operation : String} {a : Attempt} {fault : TransportFault}
    (step : (operation, a) ∈ n.steps) (failed : a.outcome = .error fault) :
    n.conclusion = .error (fault.form.failure operation fault.text) := by
  have unanswered := Attempt.answer_of_fault failed operation
  rcases List.mem_cons.mp step with first | later
  · cases first
    -- Without a response there is no challenge, and nothing comes after it.
    have unchallenged (challenge : Challenge) : ¬ n.Challenged challenge := by
      rintro ⟨request, response, value, sent, -⟩
      rw [sent] at failed
      cases failed
    have alone : n.retry = none := by
      by_contra again
      obtain ⟨challenge, met, -⟩ := orderly.repeated.mp (Option.isSome_iff_ne_none.mpr again)
      exact unchallenged challenge met
    rw [orderly.settled alone fun _ _ _ => unchallenged _, unanswered]
    rfl
  · rcases List.mem_append.mp later with fetch | retry
    · obtain ⟨attempt, fetched, same⟩ := List.mem_map.mp fetch
      cases same
      refine (orderly.refused a _ (Option.mem_toList.mp fetched) ?_).2
      rw [Attempt.token, unanswered]
      rfl
    · obtain ⟨attempt, tried, same⟩ := List.mem_map.mp retry
      cases same
      rw [orderly.final a (Option.mem_toList.mp tried), unanswered]
      rfl

/-- What goes wrong with a request that was made is about its address. -/
theorem Transport.url_of_fault {t : Transport} {request : Request} {fault : TransportFault}
    (failed : (t.send request).1 = .error fault) : fault.url? = some request.url := by
  unfold send at failed
  split at failed
  · dsimp only at failed
    rcases ready : t.replies with - | ⟨reply, rest⟩
    · rw [ready] at failed
      cases failed
    · rw [ready] at failed
      cases reply with
      | response r => cases failed
      | dropped | silent =>
        cases failed
        rfl
  · cases failed
    rfl

theorem Transport.Carries.of_mem {t t' : Transport} {attempts : List Attempt}
    (carries : t.Carries attempts t') {a : Attempt} (member : a ∈ attempts) :
    ∃ between request, a = .across between request := by
  induction attempts generalizing t with
  | nil => cases member
  | cons first later inductionHypothesis =>
    obtain ⟨⟨request, own⟩, rest⟩ := carries
    rcases List.mem_cons.mp member with rfl | further
    · exact ⟨t, request, own⟩
    · exact inductionHypothesis rest further

namespace RegistryClient

open Session

variable {c : RegistryClient} {s : Session} {call : Call}

/-- A call meets a fault in one of its attempts. -/
def MeetsFault (c : RegistryClient) (s : Session) (call : Call) (operation : String)
    (fault : TransportFault) : Prop :=
  ∃ n ∈ c.negotiations s call, ∃ a, (operation, a) ∈ n.steps ∧ a.outcome = .error fault

theorem operation_of_negotiations {n : Negotiation} (member : n ∈ c.negotiations s call) :
    n.inquiry.operation = call.operation := by
  obtain ⟨before, later, split⟩ := List.append_of_mem member
  rcases List.eq_nil_or_concat' before with rfl | ⟨earlier, m, rfl⟩
  · have asks := inquiry_of_head split
    cases call <;>
    · simp only [inquiry?] at asks
      obtain ⟨url, -, own⟩ := map_eq_ok asks
      rw [← own]
      rfl
  · rw [List.append_assoc, List.singleton_append] at split
    obtain ⟨repository, -, next, rfl, -, -, asks⟩ := c.link_negotiations split
    obtain ⟨url, -, own⟩ := map_eq_ok asks
    rw [← own]
    rfl

theorem MeetsFault.operation_mem {operation : String} {fault : TransportFault}
    (meets : c.MeetsFault s call operation fault) : operation ∈ operations := by
  obtain ⟨n, member, a, step, -⟩ := meets
  have own := call.operation_mem
  rw [← operation_of_negotiations member] at own
  rcases List.mem_cons.mp step with first | later
  · cases first
    exact own
  · rcases List.mem_append.mp later with fetch | retry
    · obtain ⟨attempt, -, same⟩ := List.mem_map.mp fetch
      cases same
      simp [operations]
    · obtain ⟨attempt, -, same⟩ := List.mem_map.mp retry
      cases same
      exact own

theorem MeetsFault.result {operation : String} {fault : TransportFault}
    (meets : c.MeetsFault s call operation fault) :
    ((c.call call).run s).1 = .error (fault.form.failure operation fault.text) := by
  obtain ⟨n, member, a, step, failed⟩ := meets
  have orderly := orderly_of_course (c.course_call s call) member
  exact fails_of_negotiations member (orderly.conclusion_of_fault step failed)

/-- An attempt that was sent fails with a fault about its address. -/
theorem url_of_attempt {n : Negotiation} (member : n ∈ c.negotiations s call) {request : Request}
    {fault : TransportFault} (attempted : .sent request (.error fault) ∈ n.attempts) :
    fault.url? = some request.url := by
  have within : .sent request (.error fault) ∈ (c.negotiations s call).flatMap Negotiation.attempts :=
    List.mem_flatMap.mpr ⟨n, member, attempted⟩
  obtain ⟨between, made, own⟩ := (c.course_call s call).carries.of_mem within
  cases made with
  | error fault' => cases own
  | ok request' =>
    obtain ⟨rfl, outcome⟩ := Attempt.sent.inj own
    exact Transport.url_of_fault outcome.symm

/-- In an address with plain names behind the interface a word is part of one of the names, or of what
    stands before them. -/
theorem mentions_of_sends {address : String} {credentials : Credentials} {pageSize : UInt64}
    (made : make address credentials pageSize = .ok c) (query : c.base.query = none)
    (fragment : c.base.fragment = none) {r : Resource} (about : call.resource? = some r)
    (plain : r.Plain) {request : Request} (sends : c.Sends call request) :
    ∃ front, c.interface = .ok front ∧ ∀ word ∈ loadedWords,
      (Text.Mentions request.url.text word ↔
        Text.Mentions (front.text ++ r.repository) word ∨ Text.Mentions r.name word) := by
  obtain ⟨front, door, hosted, noQuery, noFragment, further⟩ :=
    continues_of_sends made query fragment about sends
  refine ⟨front, door, fun word loaded => ?_⟩
  have single : ∀ word ∈ loadedWords, '/' ∉ word.toList := by decide +kernel
  have shelves : ∀ word ∈ loadedWords, ∀ shelf ∈ ["tags", "manifests"],
      ¬ word.toList <:+: shelf.toList := by decide +kernel
  have shelf : r.shelf ∈ ["tags", "manifests"] := by
    cases call with
    | catalogPage => cases about
    | tagList | lookup | removal =>
      cases about
      simp
  have spelled : request.url.text.toList =
      (front.text ++ r.repository).toList ++ '/' :: (r.shelf.toList ++ '/' :: r.name.toList) := by
    rw [(further.mpr (plain.path about)).text hosted noQuery noFragment, String.toList_append,
      String.toList_ofList, r.toList_path, String.toList_append, List.append_assoc]
  rw [Text.Mentions, spelled, Text.infix_append_cons_iff (single word loaded),
    Text.infix_append_cons_iff (single word loaded)]
  simp [Text.Mentions, shelves word loaded r.shelf shelf]

/-- A call that meets a fault fails in the form of the fault, and its failure shows which one this is.
    Where a request was neither left alone nor out of reach, the form is the same for all addresses
    without a loaded word; it is the same for two addresses exactly if they have the same such word
    first.  If names are plain, these words come out of nothing but the names and the address of the
    registry. -/
theorem form_follows_words (c : RegistryClient) (s : Session) (call : Call) :
    (∀ operation fault, c.MeetsFault s call operation fault → operation ∈ operations ∧
      ((c.call call).run s).1 = .error (fault.form.failure operation fault.text)) ∧
    (∀ operation ∈ operations, ∀ operation' ∈ operations, ∀ form form' text text',
      FaultForm.failure operation text form = FaultForm.failure operation' text' form' →
        form = form') ∧
    (∀ fault : TransportFault, fault.Residual →
      (fault.form = .general ↔ ∀ word ∈ loadedWords, ¬ fault.Names word)) ∧
    (∀ fault fault' : TransportFault, fault.Residual → fault'.Residual →
      (fault.form = fault'.form ↔ fault.loaded? = fault'.loaded?)) ∧
    ∀ address credentials pageSize, make address credentials pageSize = .ok c →
      c.base.query = none → c.base.fragment = none → ∀ r, call.resource? = some r → r.Plain →
      ∀ n later request fault, c.negotiations s call = n :: later →
        .sent request (.error fault) ∈ n.tries →
        ∃ front, c.interface = .ok front ∧ ∀ word ∈ loadedWords,
          (fault.Names word ↔
            Text.Mentions (front.text ++ r.repository) word ∨ Text.Mentions r.name word) := by
  refine ⟨fun operation fault meets => ⟨meets.operation_mem, meets.result⟩, ?_, ?_, ?_, ?_⟩
  · intro operation own operation' own' form form' text text' same
    exact FaultForm.eq_of_failure own own' same
  · exact fun _ => TransportFault.form_eq_general_iff
  · exact fun _ _ => TransportFault.form_eq_form_iff
  · intro address credentials pageSize made query fragment r about plain n later request fault split
      tried
    have sends : c.Sends call request := ⟨s, [], n, later, _, split, .inl rfl, tried⟩
    obtain ⟨front, door, words⟩ := mentions_of_sends made query fragment about plain sends
    have attempted : .sent request (.error fault) ∈ n.attempts :=
      (List.mem_cons.mp tried).elim (fun first => first ▸ List.mem_cons_self) fun retry =>
        List.mem_cons_of_mem _ (List.mem_append_right _ retry)
    have url := url_of_attempt (split ▸ List.mem_cons_self) attempted
    refine ⟨front, door, fun word loaded => ?_⟩
    rw [← words word loaded, TransportFault.Names, url]
    simp

/-- A registry that hangs up on the first request. -/
def abrupt : Session := .start ⟨true, [.dropped], [], [], false⟩

/-- A connection that breaks off in the same way is a matter of resolution for one repository and not
    for another, and so is a cursor that nothing can be sent to. -/
theorem form_varies_with_names :
    ((namedClient.call (.tagList "dns")).run abrupt).1 = .error ⟨.network,
      "DNS resolution error for tag listing: " ++
        "error sending request for url (http://r/v2/dns/tags/list)"⟩ ∧
    ((namedClient.call (.tagList "web")).run abrupt).1 = .error ⟨.network,
      "tag listing network error: error sending request for url (http://r/v2/web/tags/list)"⟩ ∧
    ((namedClient.call (.catalogPage (some "mailto:dns"))).run abrupt).1 = .error ⟨.network,
      "DNS resolution error for catalog listing: builder error for url (mailto:dns)"⟩ ∧
    ((namedClient.call (.catalogPage (some "mailto:web"))).run abrupt).1 = .error ⟨.network,
      "catalog listing network error: builder error for url (mailto:web)"⟩ := by
  refine ⟨?_, ?_, ?_, ?_⟩ <;> decide +kernel

end RegistryClient

end RegistryCache
