import RegistryCache.Config.Registry
import RegistryCache.Http.Link
import RegistryCache.Http.Session
import RegistryCache.Registry.Basic
import RegistryCache.Sync.World

/-! # A registry over HTTP

The four calls of the cache as requests: pages of the catalog and of tag lists are fetched with GET,
a tag is looked up with HEAD, a manifest is removed with DELETE.  Each call has a scope of its own, so
that a token for one is never used for another.
-/

namespace RegistryCache

/-- How one registry is called. -/
structure RegistryClient where
  address : String
  base : Url
  credentials : Credentials
  pageSize : UInt64
  deriving DecidableEq, Repr

namespace RegistryClient

/-! ## Making a client -/

/-- An address without slashes at its end. -/
def trimmedAddress (address : String) : String :=
  String.ofList (Text.trimEndBy (· == '/') address.toList)

/-- An address or what is wrong with it, as a failure of the program. -/
def checked (r : Except UrlFault Url) : Except RegistryError Url :=
  match r with
  | .ok url => .ok url
  | .error fault => .error ⟨.validation, fault.text⟩

/-- A client for the registry at an address. -/
def make (address : String) (credentials : Credentials) (pageSize : UInt64) :
    Except RegistryError RegistryClient := do
  let address := trimmedAddress address
  let base ← checked (Url.parse address)
  return ⟨address, base, credentials, pageSize⟩

/-- The client that a configuration describes, if there is nothing wrong with it. -/
def ofConfig (c : RegistryConfig) (files : Files) : Except RegistryError RegistryClient := do
  c.validate
  let password ← c.resolvePassword files
  make c.address ⟨c.username, password⟩ c.pageSize

/-! ## Addresses -/

/-- The address of something below the registry's interface. -/
def endpoint (c : RegistryClient) (path : String) : Except RegistryError Url :=
  checked (Url.parse s!"{c.address}/v2/{path}")

/-- The address that a cursor stands for. -/
def cursorUrl (c : RegistryClient) (cursor : String) : Except RegistryError Url :=
  checked (c.base.join cursor)

/-- The address of a page of the catalog. -/
def catalogUrl (c : RegistryClient) : Option String → Except RegistryError Url
  | some cursor => c.cursorUrl cursor
  | none => do return (← c.endpoint "_catalog").addPair "n" (toString c.pageSize)

/-- The address of a page of the tags of a repository. -/
def tagsUrl (c : RegistryClient) (repository : String) : Option String → Except RegistryError Url
  | some cursor => c.cursorUrl cursor
  | none => c.endpoint s!"{repository}/tags/list"

/-- The address of a manifest. -/
def manifestUrl (c : RegistryClient) (repository reference : String) : Except RegistryError Url :=
  c.endpoint s!"{repository}/manifests/{reference}"

/-! ## Scopes -/

def catalogScope : String := "registry:catalog:*"

def pullScope (repository : String) : String := s!"repository:{repository}:pull"

def deleteScope (repository : String) : String := s!"repository:{repository}:delete"

/-! ## Calls -/

/-- The cursor of the next page that a response names. -/
def nextLink? (response : Response) : Option String :=
  (response.header? "Link").bind Link.next?

def catalogPage (c : RegistryClient) (cursor : Option String) : Exchange CatalogPage := do
  let url ← c.catalogUrl cursor
  Session.report .debug s!"Fetching catalog page: {url.text}"
  let response ← Session.perform c.credentials catalogScope "catalog listing" .get url
    Request.anything
  match response.json?.bind (Json.listing? "repositories") with
  | some repositories => return ⟨repositories, nextLink? response⟩
  | none => throw ⟨.parse, s!"Failed to parse catalog response: {undecodable}"⟩

/-- Fetches a page of the tags of a repository, and the cursor of the one after it. -/
def tagPage (c : RegistryClient) (repository : String) (cursor : Option String) :
    Exchange (List String × Option String) := do
  let url ← c.tagsUrl repository cursor
  let response ← Session.perform c.credentials (pullScope repository) "tag listing" .get url
    Request.anything
  match response.json?.bind (Json.listing? "tags") with
  | some tags => return (tags, ← nextCursor cursor (nextLink? response) "Tag")
  | none => throw ⟨.parse, s!"Failed to parse tags response: {undecodable}"⟩

/-- Fetches the pages of the tags of a repository from a cursor on, at most so many of them. -/
def tagPages (c : RegistryClient) (repository : String) :
    Nat → Option String → Exchange (List String)
  | 0, _ => throw ((⟨404⟩ : Status).failure "" "tag listing")
  | bound + 1, cursor => do
    let (tags, next) ← c.tagPage repository cursor
    match next with
    | some next => return tags ++ (← c.tagPages repository bound (some next))
    | none => return tags

/-- Fetches all tags of a repository.  A page is a success only if a reply was ready for it, so there
    are no more pages than replies. -/
def tagList (c : RegistryClient) (repository : String) : Exchange (List String) := do
  let tags ← c.tagPages repository ((← get).transport.replies.length + 1) none
  Session.report .debug s!"Found {tags.length} tags for repository {repository}"
  return tags

/-- The kinds of manifests that a lookup accepts. -/
def acceptedManifests : String :=
  Text.join ", " [dockerManifest, dockerManifestList, ociManifest, ociIndex]

def digestHeader : String := "Docker-Content-Digest"

/-- The kind of a manifest, without its parameters. -/
def mediaType (response : Response) : String :=
  match response.header? "Content-Type" with
  | some value => Text.trimmed (String.ofList (value.toList.takeWhile (· ≠ ';')))
  | none => ""

/-- Looks up what a tag or digest of a repository stands for. -/
def lookup (c : RegistryClient) (repository reference : String) : Exchange Descriptor := do
  let url ← c.manifestUrl repository reference
  let response ← Session.perform c.credentials (pullScope repository) "manifest lookup" .head url
    acceptedManifests
  match response.header? digestHeader with
  | some digest => return ⟨Text.trimmed digest, mediaType response⟩
  | none => throw ⟨.registry, s!"No {digestHeader} header for {repository}:{reference}"⟩

def removal (c : RegistryClient) (repository digest : String) : Exchange Unit := do
  let url ← c.manifestUrl repository digest
  Session.report .verbose s!"Deleting manifest {repository}@{digest}"
  let _ ← Session.perform c.credentials (deleteScope repository) "manifest deletion" .delete url
    Request.anything

/-- Makes a call. -/
def call (c : RegistryClient) : (call : Call) → Exchange call.Answer
  | .catalogPage cursor => c.catalogPage cursor
  | .tagList repository => c.tagList repository
  | .lookup repository reference => c.lookup repository reference
  | .removal repository digest => c.removal repository digest

/-- The registry behind a client, as the cache sees it.  What a call reports is handed on. -/
def registry (c : RegistryClient) : Registry Session where
  latency _ _ := 0
  answer s call :=
    let (reply, s) := (c.call call).run { s with notices := [] }
    (reply, s, s.notices)

end RegistryClient

end RegistryCache
