import RegistryCache.Proofs.Addresses.PlainPaths
import RegistryCache.Proofs.Negotiation.Destinations

/-! # Whose resources are asked for

Names of repositories, tags and digests are written into addresses as they come.  A client asks for
what it is told to exactly if these are plain; and as long as they are, requests for different
repositories never go to the same address (`RegistryClient.requests_apart`).
-/

namespace RegistryCache

open Session

/-! ## Resources -/

/-- What a call to a repository is about. -/
structure Resource where
  repository : String
  /-- What kind of thing it is. -/
  shelf : String
  name : String
  deriving DecidableEq, Repr

namespace Resource

/-- Where the resource is below the registry's interface. -/
def path (r : Resource) : String := s!"{r.repository}/{r.shelf}/{r.name}"

/-- Both names are plain, and the inner one is a single segment, as tags and digests are. -/
structure Plain (r : Resource) : Prop where
  repository : Url.Plain r.repository.toList
  name : Url.Plain r.name.toList
  single : '/' ∉ r.name.toList

theorem toList_path (r : Resource) :
    r.path.toList = r.repository.toList ++ '/' :: (r.shelf.toList ++ '/' :: r.name.toList) := by
  simp [path, toString]

end Resource

/-- The resource of a call to a repository. -/
def Call.resource? : Call → Option Resource
  | .catalogPage _ => none
  | .tagList repository => some ⟨repository, "tags", "list"⟩
  | .lookup repository reference => some ⟨repository, "manifests", reference⟩
  | .removal repository digest => some ⟨repository, "manifests", digest⟩

theorem Call.shelf_of_resource? {call : Call} {r : Resource} (about : call.resource? = some r) :
    Url.Plain r.shelf.toList ∧ '/' ∉ r.shelf.toList := by
  have tags : Url.Plain "tags".toList ∧ '/' ∉ "tags".toList := by decide +kernel
  have manifests : Url.Plain "manifests".toList ∧ '/' ∉ "manifests".toList := by decide +kernel
  cases call with
  | catalogPage => cases about
  | tagList =>
    cases about
    exact tags
  | lookup | removal =>
    cases about
    exact manifests

theorem Resource.Plain.path {call : Call} {r : Resource} (about : call.resource? = some r)
    (plain : r.Plain) : Url.Plain r.path.toList := by
  rw [r.toList_path, Url.plain_append_slash, Url.plain_append_slash]
  exact ⟨plain.repository, (Call.shelf_of_resource? about).1, plain.name⟩

/-- What stands behind the last slash is determined, and so is what stands in front of it. -/
theorem append_slash_inj {front front' name name' : List Char} (single : '/' ∉ name)
    (single' : '/' ∉ name') (same : front ++ '/' :: name = front' ++ '/' :: name') :
    front = front' ∧ name = name' := by
  obtain ⟨more, longer, rest⟩ | ⟨more, longer, rest⟩ := List.append_eq_append_iff.mp same
  · cases more with
    | nil => exact ⟨by simpa using longer.symm, (List.cons.inj rest).2⟩
    | cons c more =>
      obtain ⟨-, rfl⟩ := List.cons.inj rest
      exact absurd (by simp) single
  · cases more with
    | nil => exact ⟨by simpa using longer, (List.cons.inj rest).2.symm⟩
    | cons c more =>
      obtain ⟨-, rfl⟩ := List.cons.inj rest
      exact absurd (by simp) single'

/-- If inner names are single segments, the place of a resource determines it. -/
theorem Resource.path_injective {call call' : Call} {r r' : Resource}
    (about : call.resource? = some r) (about' : call'.resource? = some r')
    (single : '/' ∉ r.name.toList) (single' : '/' ∉ r'.name.toList) (same : r.path = r'.path) :
    r = r' := by
  have spelled := congrArg String.toList same
  have grouped (r : Resource) : r.path.toList =
      (r.repository.toList ++ '/' :: r.shelf.toList) ++ '/' :: r.name.toList := by
    rw [r.toList_path]
    simp
  rw [grouped, grouped] at spelled
  obtain ⟨fronts, names⟩ := append_slash_inj single single' spelled
  obtain ⟨repositories, shelves⟩ := append_slash_inj (Call.shelf_of_resource? about).2
    (Call.shelf_of_resource? about').2 fronts
  obtain ⟨repository, shelf, name⟩ := r
  cases String.toList_inj.mp repositories
  cases String.toList_inj.mp shelves
  cases String.toList_inj.mp names
  rfl

/-! ## Credentials -/

theorem splitCredentials_rest (url : Url) :
    (splitCredentials url).1.authority.isSome = url.authority.isSome ∧
      (splitCredentials url).1.query = url.query ∧ (splitCredentials url).1.fragment = url.fragment := by
  obtain ⟨authority, same, place⟩ := splitCredentials_eq url
  have hosted := congrArg Option.isSome place
  rw [Option.isSome_map, Option.isSome_map] at hosted
  rw [same]
  exact ⟨hosted, rfl, rfl⟩

/-- Taking the credentials out of an address leaves its path alone. -/
theorem continues_splitCredentials {url front : Url} (same : url.authority = front.authority)
    (path : List Char) :
    (splitCredentials url).1.Continues path (splitCredentials front).1 ↔ url.Continues path front := by
  -- Only the authorities differ from what was there, and they do so in the same way.
  unfold splitCredentials
  rw [same]
  split
  · dsimp only
    split
    · exact Iff.rfl
    · constructor
      · exact fun further => ⟨further.scheme, same, further.path, further.query, further.fragment⟩
      · exact fun further => ⟨further.scheme, congrArg (Option.map _) same, further.path,
          further.query, further.fragment⟩
  · exact Iff.rfl

namespace RegistryClient

variable {address : String} {credentials : Credentials} {pageSize : UInt64} {c : RegistryClient}

/-- The address of the registry's interface, without credentials. -/
def interface (c : RegistryClient) : Except RegistryError Url :=
  (c.endpoint "").map fun url => (splitCredentials url).1

/-- A client makes a request for the resource of a call, in some session: any request but those for
    tokens and for further pages of tags. -/
def Sends (c : RegistryClient) (call : Call) (request : Request) : Prop :=
  ∃ s before n later outcome, c.negotiations s call = before ++ n :: later ∧
    (before = [] ∨ ∀ repository, call ≠ .tagList repository) ∧ .sent request outcome ∈ n.tries

/-- A call to a repository inquires where its resource is. -/
theorem endpoint_of_inquiry {call : Call} {r : Resource} {q : Inquiry}
    (about : call.resource? = some r) (asks : c.inquiry? call = .ok q) :
    c.endpoint r.path = .ok q.url := by
  cases call with
  | catalogPage => cases about
  | tagList repository =>
    cases about
    simp only [inquiry?] at asks
    obtain ⟨url, found, own⟩ := map_eq_ok asks
    have text : s!"{repository}/tags/list" = (⟨repository, "tags", "list"⟩ : Resource).path :=
      String.toList_inj.mp (by simp [Resource.toList_path, toString])
    rw [tagsUrl, text] at found
    rw [found, ← own]
    rfl
  | lookup repository reference | removal repository reference =>
    cases about
    simp only [inquiry?] at asks
    obtain ⟨url, found, own⟩ := map_eq_ok asks
    have text : s!"{repository}/manifests/{reference}" =
        (⟨repository, "manifests", reference⟩ : Resource).path :=
      String.toList_inj.mp (by simp [Resource.toList_path, toString])
    rw [manifestUrl, text] at found
    rw [found, ← own]
    rfl

/-- Such a request goes where the resource is, and this can be reached. -/
theorem endpoint_of_sends {call : Call} {r : Resource} {request : Request}
    (about : call.resource? = some r) (sends : c.Sends call request) :
    ∃ url, c.endpoint r.path = .ok url ∧ request.url = (splitCredentials url).1 ∧
      Url.isWeb url.scheme := by
  obtain ⟨s, before, n, later, outcome, split, first, tried⟩ := sends
  -- Only listings go on to further pages.
  have alone : before = [] := by
    rcases first with none' | other
    · exact none'
    · rcases List.eq_nil_or_concat' before with none' | ⟨earlier, m, rfl⟩
      · exact none'
      · rw [List.append_assoc, List.singleton_append] at split
        obtain ⟨repository, _, _, listing, -⟩ := c.link_negotiations split
        exact absurd listing (other repository)
  subst alone
  obtain ⟨authorization, made⟩ :=
    (orderly_of_course (c.course_call s call) (split ▸ List.mem_cons_self)).same _ tried
  obtain ⟨-, address, sendable⟩ := eq_of_request made.symm
  have asks := inquiry_of_head split
  refine ⟨n.inquiry.url, endpoint_of_inquiry about asks, address, ?_⟩
  have same : (splitCredentials n.inquiry.url).1.scheme = n.inquiry.url.scheme :=
    congrArg Prod.fst (origin_splitCredentials n.inquiry.url)
  simp only [isSendable, Bool.and_eq_true, Bool.or_eq_true, beq_iff_eq] at sendable
  rw [← same, ← address]
  exact sendable.1.1

/-- What is below the address of a client has the scheme of the client. -/
theorem isWeb_base (made : make address credentials pageSize = .ok c) {path : String} {url : Url}
    (found : c.endpoint path = .ok url) (web : Url.isWeb url.scheme) : Url.isWeb c.base.scheme := by
  rw [← Url.scheme_parse_extended (make_eq_ok made).2 (endpoint_eq_ok.mp found)]
  exact web

theorem origin_of_sends (made : make address credentials pageSize = .ok c) {call : Call}
    {r : Resource} {request : Request} (about : call.resource? = some r)
    (sends : c.Sends call request) : request.url.origin = c.base.origin := by
  obtain ⟨url, found, address, web⟩ := endpoint_of_sends about sends
  rw [address, origin_splitCredentials]
  exact origin_endpoint made (isWeb_base made found web) found

/-- Its address is that of the interface with the place of the resource behind it, if and only if this
    is plain. -/
theorem continues_of_sends (made : make address credentials pageSize = .ok c)
    (query : c.base.query = none) (fragment : c.base.fragment = none) {call : Call} {r : Resource}
    {request : Request} (about : call.resource? = some r) (sends : c.Sends call request) :
    ∃ front, c.interface = .ok front ∧ front.authority.isSome = true ∧ front.query = none ∧
      front.fragment = none ∧
      (request.url.Continues r.path.toList front ↔ Url.Plain r.path.toList) := by
  obtain ⟨url, found, address, web⟩ := endpoint_of_sends about sends
  obtain ⟨front, first, hosted, noQuery, noFragment, same, further⟩ :=
    Url.continues_iff_plain (make_eq_ok made).2 (isWeb_base made found web) query fragment
      (List.all_eq_true.mp (by decide)) (endpoint_eq_ok.mp found)
  have door : c.interface = .ok (splitCredentials front).1 := by
    rw [interface, endpoint_eq_ok.mpr (by rw [String.append_empty]; exact first)]
    rfl
  obtain ⟨authority', query', fragment'⟩ := splitCredentials_rest front
  refine ⟨_, door, authority'.trans hosted, query'.trans noQuery, fragment'.trans noFragment, ?_⟩
  rw [address, continues_splitCredentials same]
  exact further

/-- All requests for the resources of repositories go to the registry of the client.  They go to its
    interface with the place of the resource behind it, and nothing else changed, if and only if this is
    plain; and as long as names are, requests for different repositories do not have the same address. -/
theorem requests_apart (made : make address credentials pageSize = .ok c)
    (query : c.base.query = none) (fragment : c.base.fragment = none) :
    (∀ s call, ((c.call call).run s).2.transport.requests =
      s.transport.requests ++
        s.transport.arrivals ((c.negotiations s call).flatMap Negotiation.attempts)) ∧
    (∀ call r request, call.resource? = some r → c.Sends call request →
      request.url.origin = c.base.origin ∧
      ∃ front, c.interface = .ok front ∧ front.query = none ∧ front.fragment = none ∧
        (request.url.Continues r.path.toList front ↔ Url.Plain r.path.toList)) ∧
    ∀ call call' r r' request request', call.resource? = some r → call'.resource? = some r' →
      r.Plain → r'.Plain → r.repository ≠ r'.repository →
      c.Sends call request → c.Sends call' request' → request.url.text ≠ request'.url.text := by
  refine ⟨fun s call => (c.course_call s call).carries.requests, ?_, ?_⟩
  · intro call r request about sends
    obtain ⟨front, door, -, noQuery, noFragment, further⟩ :=
      continues_of_sends made query fragment about sends
    exact ⟨origin_of_sends made about sends, front, door, noQuery, noFragment, further⟩
  · -- The interface is the same for both, so equal addresses have equal paths behind it.
    intro call call' r r' request request' about about' plain plain' different sends sends' same
    obtain ⟨front, door, hosted, noQuery, noFragment, further⟩ :=
      continues_of_sends made query fragment about sends
    obtain ⟨front', door', -, -, -, further'⟩ :=
      continues_of_sends made query fragment about' sends'
    cases door.symm.trans door'
    rw [(further.mpr (plain.path about)).text hosted noQuery noFragment,
      (further'.mpr (plain'.path about')).text hosted noQuery noFragment] at same
    have chars := congrArg String.toList same
    have paths : r.path = r'.path := String.toList_inj.mp (by simpa using chars)
    exact different (congrArg Resource.repository
      (Resource.path_injective about about' plain.single plain'.single paths))

/-- A registry that has tags for whoever asks, and then nothing. -/
def generous : Session := .start ⟨true, [holding "[[\"a\"]]"], [], [], false⟩

/-- The tags of a repository are not asked for where another one whose name begins alike is deleted
    from. -/
theorem requests_apart_library :
    make "http://r" ⟨some "u", some "p"⟩ 100 = .ok namedClient ∧
    namedClient.base.query = none ∧ namedClient.base.fragment = none ∧
    ((namedClient.call (.tagList "library/app")).run generous).2.transport.requests.map
      (·.url.text) = ["http://r/v2/library/app/tags/list"] ∧
    ((namedClient.call (.removal "library/app2" "sha256:1")).run generous).2.transport.requests.map
      (·.url.text) = ["http://r/v2/library/app2/manifests/sha256:1"] ∧
    ∀ request request', namedClient.Sends (.tagList "library/app") request →
      namedClient.Sends (.removal "library/app2" "sha256:1") request' →
      request.url.text ≠ request'.url.text := by
  have made : make "http://r" ⟨some "u", some "p"⟩ 100 = .ok namedClient := by decide +kernel
  have query : namedClient.base.query = none := rfl
  have fragment : namedClient.base.fragment = none := rfl
  refine ⟨made, query, fragment, by decide +kernel, by decide +kernel, fun request request' => ?_⟩
  exact (requests_apart made query fragment).2.2 _ _ ⟨"library/app", "tags", "list"⟩
    ⟨"library/app2", "manifests", "sha256:1"⟩ request request' rfl rfl
    ⟨by decide +kernel, by decide +kernel, by decide +kernel⟩
    ⟨by decide +kernel, by decide +kernel, by decide +kernel⟩ (by decide)

/-- A name with dot segments reaches another repository: what is deleted from the one is deleted from
    the other. -/
theorem dots_reach_other_repository :
    make "http://r" ⟨some "u", some "p"⟩ 100 = .ok namedClient ∧
    ((namedClient.call (.removal "x/../app" "sha256:1")).run generous).2.transport.requests =
      ((namedClient.call (.removal "app" "sha256:1")).run generous).2.transport.requests ∧
    ((namedClient.call (.removal "x/../app" "sha256:1")).run generous).2.transport.requests.map
      (fun request => (request.method, request.url.text)) =
        [(.delete, "http://r/v2/app/manifests/sha256:1")] := by
  refine ⟨?_, ?_, ?_⟩ <;> decide +kernel

end RegistryClient

end RegistryCache
