import RegistryCache.Proofs.Negotiation.Exchange
import RegistryCache.Proofs.Programs.Steps

/-! # How commands end

The commands that read the catalog first succeed exactly if they get all of it: what becomes of the tags
of single repositories never counts (`RunReport.Reads`).  A deletion succeeds exactly if the manifest is
found and its removal is granted (`RunReport.Deletes`).  The main statement is
`Arguments.exit_status`.
-/

namespace RegistryCache

namespace RegistryClient

variable (c : RegistryClient)

/-- The catalog as a fresh client reads it over a transport, with the session afterwards. -/
def readCatalog (t : Transport) : Except RegistryError (List String) × Session :=
  (c.catalogPages (t.replies.length + 1) none).run (.start t)

end RegistryClient

/-! ## Methods -/

/-- What arrives has the method of the inquiry, or gets a token. -/
theorem Negotiation.Orderly.method_of_arrivals {credentials : Credentials} {n : Negotiation}
    (orderly : n.Orderly credentials) {t : Transport} {request : Request}
    (arrived : request ∈ t.arrivals n.attempts) :
    request.method = n.inquiry.method ∨ request.method = .get := by
  obtain ⟨attempt, member, sent⟩ := List.mem_filterMap.mp arrived
  cases attempt with
  | unsent fault => cases sent
  | sent own outcome =>
    have method : request.method = own.method := by
      dsimp only at sent
      split_ifs at sent
      cases sent
      rfl
    have tried (known : .sent own outcome ∈ n.tries) : own.method = n.inquiry.method := by
      obtain ⟨authorization, made⟩ := orderly.same _ known
      exact (Session.eq_of_request made.symm).1
    rw [method]
    rw [orderly.bounded.1] at member
    rcases List.mem_cons.mp member with first | later
    · refine .inl (tried ?_)
      rw [first]
      exact List.mem_cons_self
    · rcases List.mem_append.mp later with fetch | retry
      · obtain ⟨-, -, -, url, -, -, made⟩ := orderly.asked _ (Option.mem_toList.mp fetch)
        exact .inr (Session.eq_of_request made.symm).1
      · exact .inl (tried (List.mem_cons_of_mem n.first retry))

/-! ## What is asked for -/

namespace RegistryClient

open Session

variable {c : RegistryClient} {s : Session} {n : Negotiation}

/-- All requests that come are those of negotiations. -/
theorem requests_of_course {credentials : Credentials} {s s' : Session} {ns : List Negotiation}
    (course : Course credentials s ns s') :
    ∃ sent, s'.transport.requests = s.transport.requests ++ sent ∧
      ∀ request ∈ sent, ∃ n ∈ ns, request ∈ s.transport.arrivals n.attempts := by
  refine ⟨_, course.carries.requests, ?_⟩
  intro request arrived
  obtain ⟨attempt, member, sent⟩ := List.mem_filterMap.mp arrived
  obtain ⟨n, negotiated, tried⟩ := List.mem_flatMap.mp member
  exact ⟨n, negotiated, List.mem_filterMap.mpr ⟨attempt, tried, sent⟩⟩

theorem inquiry_of_negotiated {q? : Except RegistryError Inquiry} (member : n ∈ c.negotiated s q?) :
    q? = .ok n.inquiry := by
  cases q? with
  | error e => cases member
  | ok q => rw [List.mem_singleton.mp member, inquiry_negotiation]

theorem inquiry_of_catalogPages {cursors : List (Option String)}
    (member : n ∈ c.history s (cursors.map .catalogPage)) :
    ∃ cursor url, c.catalogUrl cursor = .ok url ∧ n.inquiry = catalogInquiry url := by
  induction cursors generalizing s with
  | nil => cases member
  | cons cursor later inductionHypothesis =>
    rcases List.mem_append.mp member with here | further
    · obtain ⟨url, address, asks⟩ := map_eq_ok (inquiry_of_negotiated here)
      exact ⟨cursor, url, address, asks.symm⟩
    · exact inductionHypothesis further

variable (c)

/-- All that is asked for while the catalog is read are its pages. -/
theorem requests_readCatalog (t : Transport) :
    (∃ cursors : List (Option String),
      (c.readCatalog t).2.transport = (c.after (.start t) (cursors.map .catalogPage)).transport) ∧
    ∃ ns : List Negotiation,
      (∀ n ∈ ns, ∃ cursor url, c.catalogUrl cursor = .ok url ∧ n.inquiry = catalogInquiry url) ∧
      (c.readCatalog t).2.transport.requests =
        t.requests ++ t.arrivals (ns.flatMap Negotiation.attempts) := by
  obtain ⟨cursors, reached⟩ := c.exists_cursors (t.replies.length + 1) none (.start t)
  have course := c.course_history (.start t) (cursors.map .catalogPage)
  rw [readCatalog, ← reached]
  exact ⟨⟨cursors, rfl⟩, c.history (.start t) (cursors.map .catalogPage),
    fun n member => inquiry_of_catalogPages member, course.carries.requests⟩

/-- A lookup sends no request to delete anything. -/
theorem requests_lookup (repository reference : String) (s : Session) :
    ∃ sent, ((c.lookup repository reference).run s).2.transport.requests =
      s.transport.requests ++ sent ∧ ∀ request ∈ sent, request.method ≠ .delete := by
  obtain ⟨read, asks⟩ := c.asks_lookup repository reference
  have course := asks.course s
  obtain ⟨sent, came, each⟩ := requests_of_course course
  refine ⟨sent, came, ?_⟩
  intro request member
  obtain ⟨n, negotiated, arrived⟩ := each request member
  obtain ⟨url, -, own⟩ := map_eq_ok (inquiry_of_negotiated negotiated)
  rcases (orderly_of_course course negotiated).method_of_arrivals arrived with same | same
  · rw [same, ← own]
    exact fun head => nomatch head
  · rw [same]
    exact fun get => nomatch get

end RegistryClient

/-! ## What is to be shown -/

/-- How a command ends that reads the catalog and then makes calls for tags. -/
structure RunReport.Reads (r : RunReport) (client : RegistryClient) (t : Transport)
    (calls : List String → List Call) : Prop where
  /-- The catalog alone decides. -/
  status : r.exitCode = 0 ↔ ∃ names, (client.readCatalog t).1 = .ok names
  /-- Without it the program gives up and says so. -/
  fails : ∀ e, (client.readCatalog t).1 = .error e →
    r.exitCode = 1 ∧ r.result = .error ⟨.catalogUnavailable, e.message⟩ ∧
      r.printed.getLast? = some ⟨.err,
        s!"❌ ERROR: Cannot read the registry catalog, nothing to serve: Catalog unavailable: {e.message}"⟩
  /-- By then nothing but pages of the catalog was asked for. -/
  asksNoTags : (∃ e, (client.readCatalog t).1 = .error e) →
    (∃ cursors : List (Option String),
      r.transport = (client.after (.start t) (cursors.map .catalogPage)).transport) ∧
    ∃ ns : List Negotiation,
      (∀ n ∈ ns, ∃ cursor url, client.catalogUrl cursor = .ok url ∧
        n.inquiry = RegistryClient.catalogInquiry url) ∧
      r.transport.requests = t.requests ++ t.arrivals (ns.flatMap Negotiation.attempts)
  /-- Once the catalog is read the calls for tags are made, each once and in order. -/
  asksTags : ∀ names, (client.readCatalog t).1 = .ok names →
    r.transport = (client.after (client.readCatalog t).2 (calls names)).transport

/-- How a deletion ends. -/
structure RunReport.Deletes (r : RunReport) (client : RegistryClient) (t : Transport)
    (repository tag : String) : Prop where
  /-- The manifest must be found, and the removal of just that one must be granted. -/
  status : r.exitCode = 0 ↔ ∃ d s, (client.lookup repository tag).run (.start t) = (.ok d, s) ∧
    ((client.removal repository d.digest).run s).1 = .ok ()
  /-- What was not found is not removed: nothing is asked for after the lookup. -/
  unfound : ∀ e s, (client.lookup repository tag).run (.start t) = (.error e, s) →
    r.transport = s.transport ∧
      ∃ sent, r.transport.requests = t.requests ++ sent ∧ ∀ request ∈ sent, request.method ≠ .delete
  found : ∀ d s, (client.lookup repository tag).run (.start t) = (.ok d, s) →
    r.transport = ((client.removal repository d.digest).run s).2.transport

/-- How each command ends, other than watching. -/
def Command.Ends (client : RegistryClient) (t : Transport) (r : RunReport) : Command → Prop
  | .stats _ | .browse _ => r.Reads client t fun names => names.map .tagList
  | .tags repository => r.Reads client t fun _ => [.tagList repository]
  | .delete repository tag => r.Deletes client t repository tag
  | .watch _ => True

/-! ## Commands that read -/

namespace Run

variable {client : RegistryClient}

theorem run_bind_error {m : Run α} {f : α → Run β} {s s' : RunState} {e : RegistryError}
    (ran : m.run s = (.error e, s')) : (m >>= f).run s = (.error e, s') := by
  rw [run_bind, ran]

/-- A cache that knows nothing but a catalog, which has just been read. -/
structure JustRead (cache : MetadataCache) (names : List String) : Prop where
  repositories : cache.catalog.repositories = names
  tags : cache.tags = .empty
  catalogJob : ∃ started now, cache.catalogJob = some (.ofRun started now)

theorem justRead_complete (policy : RefreshPolicy) (now started : Instant) (names : List String) :
    JustRead (CatalogWalk.complete (.fresh policy) now started names).cache names := by
  rw [(CatalogWalk.complete_eq _ now started names).1]
  refine ⟨?_, rfl, started, now, rfl⟩
  cases names <;> rfl

/-- A command that reads the catalog first, and ends well with calls for tags once it has it. -/
def ReadsThenTags (client : RegistryClient) (m : Run Unit) (calls : List String → List Call) : Prop :=
  ∃ rest : Run Unit, m = (do readCatalog client; rest) ∧
    ∀ s names, JustRead s.world.cache names → Attains rest s fun _ s' =>
      s'.world.registry.Like (client.after s.world.registry (calls names))

theorem Attains.still {m : Run α} {s : RunState} {session : Session}
    (shows : Attains m s fun _ s' => s'.world = s.world) (like : s.world.registry.Like session) :
    Attains m s fun _ s' => s'.world.registry.Like session := by
  refine shows.imp ?_
  rintro - s' world
  rw [world]
  exact like

theorem readsThenTags_stats (json : Bool) (top : UInt64) :
    ReadsThenTags client (stats client json top) fun names => names.map .tagList := by
  refine ⟨_, rfl, ?_⟩
  rintro s names ⟨rfl, -, started, now, catalogJob⟩
  refine (attains_readTags client s).bind ?_
  rintro - s' ⟨session, sameJob, tagsJob⟩
  exact (attains_showStatistics json top.toNat (sameJob.trans catalogJob) tagsJob).still session

theorem readsThenTags_browse (json : Bool) (path : String) :
    ReadsThenTags client (browse client json path) fun names => names.map .tagList := by
  refine ⟨_, rfl, ?_⟩
  rintro s names ⟨rfl, -, -⟩
  refine (attains_get s).bind ?_
  rintro a s₁ ⟨rfl, rfl⟩
  refine (attains_readTags client s).bind ?_
  rintro - s₂ ⟨session, -, -⟩
  refine (attains_get s₂).bind ?_
  rintro a s₃ ⟨rfl, rfl⟩
  refine Attains.still ?_ session
  cases json <;> exact attains_print _ s₂

theorem readsThenTags_tags (json : Bool) (repository : String) :
    ReadsThenTags client (tags client json repository) fun _ => [.tagList repository] := by
  refine ⟨_, rfl, ?_⟩
  rintro s names ⟨-, empty, -⟩
  have unknown : s.world.cache.tags.contains repository = false := by
    rw [empty]
    rfl
  refine (attains_loadTags client unknown).bind ?_
  rintro ⟨tags, ready⟩ s₁ session
  refine Attains.still ?_ session
  cases json with
  | true => exact attains_print _ s₁
  | false =>
    -- what is not ready is said to be so before it is listed
    cases ready with
    | true =>
      refine (attains_get s₁).bind ?_
      rintro a s₂ ⟨rfl, rfl⟩
      exact attains_print _ s₁
    | false =>
      refine (attains_report _ _ s₁).bind ?_
      rintro - s₂ world
      refine (attains_get s₂).bind ?_
      rintro a s₃ ⟨rfl, rfl⟩
      rw [← world]
      exact attains_print _ s₂

end Run

/-! ## Whole runs -/

section

variable {a : Arguments} {environment : AppConfig.Environment} {files : Files} {client : RegistryClient}
  (valid : (a.config environment).validate = .ok ())
  (made : RegistryClient.ofConfig (a.config environment).registry files = .ok client)
  (t : Transport)
include valid made

/-- A run is that of its command, on a fresh cache and a fresh session. -/
theorem Arguments.run_eq : ∃ s : RunState, s.world = .fresh (a.config environment).refresh (.start t) ∧
    (a.run environment files t).result = ((Run.command client a.json a.command).run s).1 ∧
    (a.run environment files t).transport =
      ((Run.command client a.json a.command).run s).2.world.registry.transport := by
  unfold Arguments.run
  dsimp only
  rw [valid]
  dsimp only
  rw [made]
  exact ⟨⟨.fresh (a.config environment).refresh (.start t),
    [.notice ⟨.verbose, none, Run.introduction client (a.config environment).refresh⟩]⟩, rfl, rfl, rfl⟩

end

namespace RunReport

variable {r : RunReport}

theorem exitCode_eq_zero_iff : r.exitCode = 0 ↔ r.result = .ok () := by
  unfold exitCode
  cases r.result with
  | error e => simp
  | ok _ => simp

theorem getLast?_printed {e : RegistryError} (failed : r.result = .error e) :
    r.printed.getLast? = some (farewell e) := by
  rw [printed, failed]
  simp

section
variable {client : RegistryClient} {t : Transport}

theorem reads_of_error {calls : List String → List Call} {e : RegistryError}
    (read : (client.readCatalog t).1 = .error e)
    (result : r.result = .error ⟨.catalogUnavailable, e.message⟩)
    (transport : r.transport = (client.readCatalog t).2.transport) : r.Reads client t calls where
  status := by
    rw [exitCode_eq_zero_iff, result, read]
    simp
  fails e' same := by
    obtain rfl : e = e' := Except.error.inj (read.symm.trans same)
    refine ⟨?_, result, ?_⟩
    · rw [exitCode, result]
    · rw [getLast?_printed result]
      rfl
  asksNoTags _ := by
    rw [transport]
    exact client.requests_readCatalog t
  asksTags names same := by
    rw [read] at same
    cases same

theorem reads_of_ok {calls : List String → List Call} {names : List String}
    (read : (client.readCatalog t).1 = .ok names) (result : r.result = .ok ())
    (transport : r.transport =
      (client.after (client.readCatalog t).2 (calls names)).transport) : r.Reads client t calls where
  status := by
    rw [exitCode_eq_zero_iff, result, read]
    simp
  fails e same := by
    rw [read] at same
    cases same
  asksNoTags := by
    rintro ⟨e, same⟩
    rw [read] at same
    cases same
  asksTags names' same := by
    obtain rfl : names = names' := Except.ok.inj (read.symm.trans same)
    exact transport

/-- A command that reads the catalog and then tags ends as such. -/
theorem reads_of_run {policy : RefreshPolicy} {m : Run Unit} {calls : List String → List Call}
    (reading : Run.ReadsThenTags client m calls) {s : RunState}
    (fresh : s.world = .fresh policy (.start t)) (result : r.result = (m.run s).1)
    (transport : r.transport = (m.run s).2.world.registry.transport) : r.Reads client t calls := by
  obtain ⟨rest, rfl, ends⟩ := reading
  have walk : (client.catalogPages (s.world.registry.left + 1) none).run s.world.registry =
      client.readCatalog t := by
    rw [fresh]
    rfl
  cases read : (client.readCatalog t).1 with
  | error e =>
    have unready : s.world.cache.catalog.ready = false := by
      rw [fresh]
      rfl
    obtain ⟨s', ran, session⟩ := Run.readCatalog_error client unready (walk ▸ read)
    rw [Run.run_bind_error ran] at result transport
    refine reads_of_error read result ?_
    rw [transport, ← walk]
    exact session.1
  | ok names =>
    obtain ⟨_, s₁, ran, cache, session⟩ := Run.attains_readCatalog client (walk ▸ read)
    have known : Run.JustRead s₁.world.cache names := by
      rw [cache, fresh]
      exact Run.justRead_complete policy _ _ names
    obtain ⟨_, s₂, goesOn, session'⟩ := ends s₁ names known
    rw [Run.run_bind, ran] at result transport
    dsimp only at result transport
    rw [goesOn] at result transport
    refine reads_of_ok read result ?_
    rw [transport, ← walk]
    exact session'.1.trans (client.like_after _ session).1

variable {repository tag : String}

theorem deletes_of_error {e e' : RegistryError} {s : Session}
    (looked : (client.lookup repository tag).run (.start t) = (.error e, s))
    (result : r.result = .error e') (transport : r.transport = s.transport) :
    r.Deletes client t repository tag where
  status := by
    rw [exitCode_eq_zero_iff, result, looked]
    constructor
    · intro done
      cases done
    · rintro ⟨d, s', same, -⟩
      cases same
  unfound e s' same := by
    rw [looked] at same
    cases same
    obtain ⟨sent, came, each⟩ := client.requests_lookup repository tag (.start t)
    rw [looked] at came
    refine ⟨transport, sent, ?_, each⟩
    rw [transport]
    exact came
  found d s' same := by
    rw [looked] at same
    cases same

theorem deletes_of_ok {d : Descriptor} {s : Session}
    (looked : (client.lookup repository tag).run (.start t) = (.ok d, s))
    (granted : r.result = .ok () ↔ ((client.removal repository d.digest).run s).1 = .ok ())
    (transport : r.transport = ((client.removal repository d.digest).run s).2.transport) :
    r.Deletes client t repository tag where
  status := by
    rw [exitCode_eq_zero_iff, granted, looked]
    constructor
    · intro removed
      exact ⟨d, s, rfl, removed⟩
    · rintro ⟨d', s', same, removed⟩
      cases same
      exact removed
  unfound e s' same := by
    rw [looked] at same
    cases same
  found d' s' same := by
    rw [looked] at same
    cases same
    exact transport

/-- So does a deletion. -/
theorem deletes_of_run {policy : RefreshPolicy} {s : RunState}
    (fresh : s.world = .fresh policy (.start t))
    (result : r.result = ((Run.delete client repository tag).run s).1)
    (transport : r.transport =
      ((Run.delete client repository tag).run s).2.world.registry.transport) :
    r.Deletes client t repository tag := by
  have session : s.world.registry = .start t := by
    rw [fresh]
    rfl
  have room := Run.replies_lt_events s.world.registry.transport
  rcases looked : (client.lookup repository tag).run (.start t) with ⟨e | d, s₁⟩
  · obtain ⟨s', ran, like⟩ := Run.run_delete client
      (World.settles_deleteTag_error client (Nat.zero_lt_of_lt room) (session ▸ looked))
    rw [ran] at result transport
    exact deletes_of_error looked result (transport.trans like.1)
  · obtain ⟨cache, settles⟩ := World.settles_deleteTag_ok client
      (Nat.lt_of_le_of_lt (Nat.le_add_left 1 _) room) (session ▸ looked)
    obtain ⟨s', ran, like⟩ := Run.run_delete client settles
    rw [ran] at result transport
    refine deletes_of_ok looked ?_ (transport.trans like.1)
    -- The deletion has an answer of its own, which is one exactly if the removal has one.
    rw [result]
    rcases ((client.removal repository d.digest).run s₁).1 with e | done
    · simp [Except.isOk, Except.toBool]
    · simp [Except.isOk, Except.toBool]

end

end RunReport

/-- Whatever the registry answers, a command other than watching ends with the status that its calls
    deserve. -/
theorem Arguments.exit_status (a : Arguments) (environment : AppConfig.Environment) (files : Files)
    (client : RegistryClient) (valid : (a.config environment).validate = .ok ())
    (made : RegistryClient.ofConfig (a.config environment).registry files = .ok client)
    (t : Transport) : a.command.Ends client t (a.run environment files t) := by
  obtain ⟨s, fresh, result, transport⟩ := Arguments.run_eq valid made t
  cases command : a.command with
  | watch reportEvery => trivial
  | stats top =>
    rw [command] at result transport
    exact RunReport.reads_of_run (Run.readsThenTags_stats a.json top) fresh result transport
  | browse path =>
    rw [command] at result transport
    exact RunReport.reads_of_run (Run.readsThenTags_browse a.json path) fresh result transport
  | tags repository =>
    rw [command] at result transport
    exact RunReport.reads_of_run (Run.readsThenTags_tags a.json repository) fresh result transport
  | delete repository tag =>
    rw [command] at result transport
    exact RunReport.deletes_of_run fresh result transport

/-- A registry that has a catalog, but drops the connection when it is asked for tags. -/
def moody : Transport := ⟨true, [RegistryClient.holding "[[\"app\"]]", .dropped], [], [], false⟩

/-- A command line that asks for the tags of a repository. -/
def listTags : Arguments where
  command := .tags "app"
  json := false
  overrides := ⟨some "http://r", none, none, none, false, none, none, none, none, none, false, false⟩

/-- The tags are not to be had, and yet the command succeeds. -/
theorem Arguments.exit_status_moody :
    (listTags.config fun _ => none).validate = .ok () ∧
    RegistryClient.ofConfig (listTags.config fun _ => none).registry (fun _ => .error .missing) =
      .ok Listing.plainClient ∧
    (listTags.run (fun _ => none) (fun _ => .error .missing) moody).exitCode = 0 := by
  have valid : (listTags.config fun _ => none).validate = .ok () := by decide +kernel
  have made : RegistryClient.ofConfig (listTags.config fun _ => none).registry
      (fun _ => .error .missing) = .ok Listing.plainClient := by decide +kernel
  have read : (Listing.plainClient.readCatalog moody).1 = .ok ["app"] := by decide +kernel
  have ends : RunReport.Reads (listTags.run (fun _ => none) (fun _ => .error .missing) moody)
      Listing.plainClient moody fun _ => [.tagList "app"] :=
    Arguments.exit_status listTags (fun _ => none) (fun _ => .error .missing) Listing.plainClient valid
      made moody
  exact ⟨valid, made, ends.status.mpr ⟨["app"], read⟩⟩

end RegistryCache
