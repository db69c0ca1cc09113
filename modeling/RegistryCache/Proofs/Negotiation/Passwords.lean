import RegistryCache.Proofs.Negotiation.Tokens

/-! # What becomes of a password

A configuration may give a password itself or name a file that holds one.  A password of its own is
refused without a name to go with it; one from a file is not, although a client that has no name never
shows its password to anybody.  So a password is of use exactly where there is a name
(`RegistryClient.password_used_iff_named`).
-/

namespace RegistryCache

open Session

/-! ## Credentials of a configuration -/

namespace RegistryConfig

variable {c : RegistryConfig} {files : Files}

/-- Name and password that a configuration gives a client, unless there is something wrong with it. -/
def credentials (c : RegistryConfig) (files : Files) : Except RegistryError Credentials := do
  c.validate
  return ⟨c.username, ← c.resolvePassword files⟩

/-- A password stands in the file that a configuration names for it. -/
def KeepsInFile (c : RegistryConfig) (files : Files) (password : String) : Prop :=
  ∃ path text, c.passwordFile = some path ∧ path ≠ "" ∧ files.text path = .ok text ∧
    password = withoutLineBreak text

theorem credentials_eq_ok {k : Credentials} (found : c.credentials files = .ok k) :
    c.fault? = none ∧ k.username = c.username ∧ c.resolvePassword files = .ok k.password := by
  unfold credentials validate at found
  cases sound : c.fault? with
  | some fault =>
    rw [sound] at found
    cases found
  | none =>
    rw [sound] at found
    cases resolved : c.resolvePassword files with
    | error e =>
      rw [resolved] at found
      cases found
    | ok password =>
      rw [resolved] at found
      cases found
      exact ⟨rfl, rfl, rfl⟩

theorem kind_of_resolvePassword {e : RegistryError} (failed : c.resolvePassword files = .error e) :
    e.kind = .validation := by
  unfold resolvePassword at failed
  split at failed
  · cases failed
  · split at failed
    · split at failed
      · cases failed
      · cases failed
        rfl
    · cases failed

theorem kind_of_credentials {e : RegistryError} (refused : c.credentials files = .error e) :
    e.kind = .validation := by
  unfold credentials validate at refused
  cases sound : c.fault? with
  | some fault =>
    rw [sound] at refused
    cases refused
    rfl
  | none =>
    rw [sound] at refused
    cases resolved : c.resolvePassword files with
    | error e' =>
      rw [resolved] at refused
      cases refused
      exact kind_of_resolvePassword resolved
    | ok password =>
      rw [resolved] at refused
      cases refused

/-- A password of its own needs a name. -/
theorem password_of_nameless (sound : c.fault? = none) (nameless : c.username = none) :
    c.password = none := by
  unfold fault? at sound
  split_ifs at sound with _ _ _ _ alone
  cases given : c.password with
  | none => rfl
  | some password =>
    rw [given, nameless] at alone
    exact absurd rfl alone

theorem keepsInFile_of_indirect {password : String} (indirect : c.password = none)
    (resolved : c.resolvePassword files = .ok (some password)) : c.KeepsInFile files password := by
  have undirected : c.directPassword? = none := by rw [directPassword?, indirect]; rfl
  unfold resolvePassword passwordPath? at resolved
  rw [undirected] at resolved
  dsimp only at resolved
  cases named : c.passwordFile.filter (!·.isEmpty) with
  | none =>
    rw [named] at resolved
    cases resolved
  | some path =>
    rw [named] at resolved
    dsimp only at resolved
    obtain ⟨own, filled⟩ := Option.filter_eq_some_iff.mp named
    cases content : files.text path with
    | error reason =>
      rw [content] at resolved
      cases resolved
    | ok text =>
      rw [content] at resolved
      cases resolved
      exact ⟨path, text, own, by simpa using filled, content, rfl⟩

end RegistryConfig

/-! ## What a client shows -/

namespace RegistryClient

variable {c : RegistryConfig} {files : Files} {client : RegistryClient}

theorem ofConfig_eq (c : RegistryConfig) (files : Files) :
    ofConfig c files = (c.credentials files).bind fun k => make c.address k c.pageSize := by
  unfold ofConfig RegistryConfig.credentials
  cases c.validate with
  | error e => rfl
  | ok =>
    cases c.resolvePassword files with
    | error e => rfl
    | ok password => dsimp only [bind, Except.bind, pure, Except.pure]

theorem kind_of_make {address : String} {credentials : Credentials} {pageSize : UInt64}
    {e : RegistryError} (failed : make address credentials pageSize = .error e) :
    e.kind = .validation := by
  unfold make at failed
  dsimp only at failed
  cases parsed : Url.parse (trimmedAddress address) with
  | error fault =>
    rw [parsed] at failed
    cases failed
    rfl
  | ok url =>
    rw [parsed] at failed
    cases failed

theorem credentials_of_make {address : String} {credentials : Credentials} {pageSize : UInt64}
    (made : make address credentials pageSize = .ok client) : client.credentials = credentials := by
  unfold make at made
  dsimp only at made
  cases parsed : checked (Url.parse (trimmedAddress address)) with
  | error e =>
    rw [parsed] at made
    cases made
  | ok url =>
    rw [parsed] at made
    cases made
    rfl

/-- In all that a client does, its requests to the registry carry one thing, or nothing, while no token
    is known for their scope. -/
def Shows (client : RegistryClient) (authorization : Option String) : Prop :=
  ∀ (t : Transport) (calls : List Call),
    t.Carries ((client.history (.start t) calls).flatMap Negotiation.attempts)
      (client.after (.start t) calls).transport ∧
    ∀ before n later, client.history (.start t) calls = before ++ n :: later →
      n.inquiry.url.Anonymous →
      (latestToken? before n.inquiry.scope = none → ∀ request outcome,
        n.first = .sent request outcome → request.authorization = authorization) ∧
      (latestToken? (before ++ [n]) n.inquiry.scope = none → ∀ request outcome,
        n.retry = some (.sent request outcome) → request.authorization = authorization)

theorem shows (client : RegistryClient) : client.Shows client.credentials.authorization? := by
  intro t calls
  have course := client.course_history (.start t) calls
  refine ⟨course.carries, fun before n later split anonymous => ?_⟩
  obtain ⟨first, retry⟩ := client.carried_of_course course split
  constructor
  · intro untold request outcome sent
    rw [sent, untold] at first
    rw [request_eq_ok anonymous first.symm]
    rfl
  · intro untold request outcome sent
    have again := retry _ sent
    rw [untold] at again
    rw [request_eq_ok anonymous again.symm]
    rfl

/-- Whatever is wrong with a configuration is a failure of validation.  If nothing is wrong and there is
    a password, all requests for which no token is known carry it with the name; if there is no name, then
    the password is one from a file, and they carry nothing. -/
theorem password_used_iff_named (c : RegistryConfig) (files : Files) :
    (∀ e, c.credentials files = .error e → e.kind = .validation) ∧
    (∀ e, ofConfig c files = .error e → e.kind = .validation) ∧
    ∀ k password, c.credentials files = .ok k → k.password = some password →
      c.resolvePassword files = .ok (some password) ∧
      (c.username = none → c.password = none ∧ c.KeepsInFile files password) ∧
      ∀ client, ofConfig c files = .ok client →
        (∀ username, c.username = some username →
          client.Shows (some (basicAuthorization username (some password)))) ∧
        (c.username = none → client.Shows none) := by
  refine ⟨fun e => RegistryConfig.kind_of_credentials, ?_, ?_⟩
  · intro e failed
    rw [ofConfig_eq] at failed
    cases found : c.credentials files with
    | error e' =>
      rw [found] at failed
      cases failed
      exact RegistryConfig.kind_of_credentials found
    | ok k =>
      rw [found] at failed
      dsimp only [Except.bind] at failed
      exact kind_of_make failed
  · intro k password found secret
    obtain ⟨sound, name, resolved⟩ := RegistryConfig.credentials_eq_ok found
    rw [secret] at resolved
    refine ⟨resolved, ?_, ?_⟩
    · intro nameless
      have indirect := RegistryConfig.password_of_nameless sound nameless
      exact ⟨indirect, RegistryConfig.keepsInFile_of_indirect indirect resolved⟩
    · intro client made
      rw [ofConfig_eq, found] at made
      dsimp only [Except.bind] at made
      have own : client.credentials = k := credentials_of_make made
      have shown := client.shows
      rw [own, Credentials.authorization?, name, secret] at shown
      constructor
      · intro username named
        rwa [named] at shown
      · intro nameless
        rwa [nameless] at shown

/-- A configuration that gives no name, and whose password is in a file. -/
def nameless : RegistryConfig := ⟨"http://r", none, none, some "pw", false, 60, 100⟩

def drawer : Files := fun path =>
  if path = "pw" then .ok (Text.Utf8.encode "secret\n".toList) else .error .missing

/-- Nothing is said against it, and its client does without the password. -/
theorem nameless_password_unused :
    nameless.credentials drawer = .ok ⟨none, some "secret"⟩ ∧
    ∃ client, ofConfig nameless drawer = .ok client ∧
      ((client.call (.catalogPage none)).run (.start trusting)).2.transport.requests.head?.map
        (·.authorization) = some none := by
  refine ⟨?_, { namedClient with credentials := ⟨none, some "secret"⟩ }, ?_, ?_⟩ <;> decide +kernel

end RegistryClient

end RegistryCache
