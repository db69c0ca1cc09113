import RegistryCache.Http.Challenge
import RegistryCache.Http.Transport
import RegistryCache.Log
import RegistryCache.Text.Base64
import RegistryCache.Url.Reference

/-! # Sessions with a registry

A session sends requests with the credentials that fit: a token that was handed out for the scope of
the request, or else name and password.  When a registry challenges a request, the session answers
once, by getting a token from the realm that the challenge names or by giving the credentials, and
repeats the request; what comes back then is final.
-/

namespace RegistryCache

/-- Name and password; without a name there are no credentials. -/
structure Credentials where
  username : Option String
  password : Option String
  deriving DecidableEq, Repr

/-- Name and password as the value of a header. -/
def basicAuthorization (username : String) (password : Option String) : String :=
  "Basic " ++ String.ofList
    (Text.Base64.encode (Text.Utf8.encode (username.toList ++ ':' :: (password.getD "").toList)))

/-- The value of a header that gives the name and password, if there are any. -/
def Credentials.authorization? (c : Credentials) : Option String :=
  c.username.map fun username => basicAuthorization username c.password

/-- What happened so far: the transport, the tokens that were handed out, and what was reported. -/
structure Session where
  transport : Transport
  /-- The token for each scope that one was handed out for. -/
  tokens : List (String × String)
  notices : List Notice
  deriving DecidableEq, Repr

/-- Something done in a session, which may fail. -/
abbrev Exchange := ExceptT RegistryError (StateM Session)

namespace Session

def start (transport : Transport) : Session := ⟨transport, [], []⟩

def token? (s : Session) (scope : String) : Option String := s.tokens.lookup scope

/-- Keeps a token for a scope in place of an earlier one. -/
def keepToken (s : Session) (scope token : String) : Session :=
  { s with tokens := (scope, token) :: s.tokens.filter (·.1 ≠ scope) }

/-- Reports something. -/
def report (level : Level) (text : String) : Exchange Unit :=
  modify fun s => { s with notices := s.notices ++ [⟨level, some "registry.client", text⟩] }

/-! ## Sending one request -/

/-- Whether a text may stand in a header. -/
def fitsHeader (text : String) : Bool :=
  text.toList.all fun c => c = '\t' ∨ (0x20 ≤ c.toNat ∧ c.toNat ≠ 0x7F)

def decoded? (cs : List Char) : Option String := Text.Utf8.text? (Text.Percent.decode cs)

/-- An address without its credentials, and these as the value of a header. -/
def splitCredentials (url : Url) : Url × Option String :=
  match url.authority.bind fun a => (decoded? a.username).map fun username => (a, username) with
  | some (a, username) =>
    let password := a.password.bind decoded?
    if username.isEmpty && password.isNone then (url, none)
    else (url.withoutCredentials, some (basicAuthorization username password))
  | none => (url, none)

/-- The longest address that can be sent, in bytes. -/
def longestAddress : Nat := 65534

/-- Whether a request can be sent to an address at all. -/
def isSendable (url : Url) : Bool :=
  (url.scheme == Url.http || url.scheme == Url.https) && url.chars.length ≤ longestAddress
    && match url.authority with
      | some ⟨_, _, .domain name, _⟩ =>
        !name.any fun c => ['"', '\x60', '\x7b', '\x7d'].contains c
      | _ => true

/-- Makes a request, unless its address or its header is of no use.  Credentials in the address go
    before all others. -/
def request (method : Method) (url : Url) (authorization : Option String) (accept : String) :
    Except TransportFault Request :=
  if !url.hasHost then .error (.badAddress url)
  else
    let (url, own) := splitCredentials url
    if !(authorization.all fitsHeader) then .error .badHeader
    else if !isSendable url then .error (.badAddress url)
    else .ok ⟨method, url, own.or authorization, accept⟩

/-- Sends a request as part of an operation. -/
def send (method : Method) (url : Url) (authorization : Option String) (accept operation : String) :
    Exchange Response :=
  match request method url authorization accept with
  | .error fault => throw (fault.toError operation)
  | .ok request => do
    let s ← get
    let (response, transport) := s.transport.send request
    set { s with transport := transport }
    match response with
    | .error fault => throw (fault.toError operation)
    | .ok response => return response

/-! ## Tokens -/

/-- The address at which a realm hands out a token. -/
def tokenUrl (realm : String) (service scope : Option String) : Except RegistryError Url :=
  match Url.parse realm with
  | .error fault => .error ⟨.validation, fault.text⟩
  | .ok url =>
    let url := url.openQuery
    let url := match service with
      | some service => url.addPair "service" service
      | none => url
    .ok (match scope with
      | some scope => url.addPair "scope" scope
      | none => url)

/-- Gets a token from a realm. -/
def requestToken (credentials : Credentials) (realm : String) (service scope : Option String) :
    Exchange String := do
  let url ← tokenUrl realm service scope
  report .detail s!"Requesting token from: {url.text}"
  let response ← send .get url credentials.authorization? Request.anything "request"
  if !response.status.isSuccess then
    report .error
      s!"Token request failed with status {response.status.text}: {response.errorText}"
    throw ⟨.auth, s!"Token request failed with status: {response.status.text}"⟩
  match response.json?.bind TokenAnswer.ofJson? with
  | none => throw ⟨.parse, s!"Failed to parse token response: {undecodable}"⟩
  | some answer =>
    match answer.value? with
    | some token => return token
    | none => throw ⟨.auth, "Token response contained no token"⟩

/-- Answers a challenge to a request of a scope, and says whether to repeat the request. -/
def respond (credentials : Credentials) (scope : String) : Challenge → Exchange Bool
  | .basic => return credentials.username.isSome
  | .bearer realm service tokenScope => do
    let token ← requestToken credentials realm service tokenScope
    modify (·.keepToken scope token)
    return true

/-! ## Operations -/

/-- What a request of a scope is authorized with. -/
def authorization (s : Session) (credentials : Credentials) (scope : String) : Option String :=
  match s.token? scope with
  | some token => some s!"Bearer {token}"
  | none => credentials.authorization?

/-- Sends a request of a scope with the authorization that fits. -/
def attempt (credentials : Credentials) (scope operation : String) (method : Method) (url : Url)
    (accept : String) : Exchange Response := do
  let s ← get
  send method url (s.authorization credentials scope) accept operation

/-- The challenge that a response brings. -/
def challenge? (response : Response) : Option Challenge :=
  if response.status.isUnauthorized then
    (response.header? "WWW-Authenticate").bind Challenge.parse?
  else none

/-- Sends a request of a scope and answers one challenge. -/
def negotiate (credentials : Credentials) (scope operation : String) (method : Method) (url : Url)
    (accept : String) : Exchange Response := do
  let response ← attempt credentials scope operation method url accept
  match challenge? response with
  | none => return response
  | some challenge => do
    report .detail s!"Authentication challenge for {operation}: {challenge.description}"
    if ← respond credentials scope challenge then
      attempt credentials scope operation method url accept
    else return response

/-- Sends a request of a scope, answers one challenge, and takes nothing but success. -/
def perform (credentials : Credentials) (scope operation : String) (method : Method) (url : Url)
    (accept : String) : Exchange Response := do
  let response ← negotiate credentials scope operation method url accept
  if response.status.isSuccess then return response
  else throw (response.status.failure response.errorText operation)

end Session

end RegistryCache
