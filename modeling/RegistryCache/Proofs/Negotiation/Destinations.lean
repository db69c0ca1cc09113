import RegistryCache.Proofs.Addresses.References
import RegistryCache.Proofs.Negotiation.Exchange

/-! # Where requests go

A client asks the registry that it was made for, and nobody else of its own accord.  But it follows the
cursors that it is given, by its caller or by a registry, and a cursor that names a host is followed
there (`RegistryClient.requests_stay_or_follow`).  All this is about the requests that a client hands
over; whom redirections of these lead to is not its doing (`Transport`).
-/

namespace RegistryCache

open Session

/-! ## Origins -/

/-- Whom a request to an address goes to: scheme, host and port. -/
def Url.origin (u : Url) : List Char × Option (Host × Option Nat) :=
  (u.scheme, u.authority.map fun a => (a.host, a.port))

theorem Url.origin_congr {u u' : Url}
    (same : u'.scheme = u.scheme ∧ u'.authority = u.authority) : u'.origin = u.origin := by
  rw [origin, origin, same.1, same.2]

/-- Taking the credentials out of an address changes its authority at most, and there neither the host
    nor the port. -/
theorem splitCredentials_eq (u : Url) :
    ∃ authority, (splitCredentials u).1 = { u with authority := authority } ∧
      authority.map (fun a => (a.host, a.port)) = u.authority.map fun a => (a.host, a.port) := by
  unfold splitCredentials
  split
  · dsimp only
    split
    · exact ⟨u.authority, rfl, rfl⟩
    · refine ⟨_, rfl, ?_⟩
      cases u.authority <;> rfl
  · exact ⟨u.authority, rfl, rfl⟩

/-- Credentials in an address have no part in where requests go. -/
theorem origin_splitCredentials (u : Url) : (splitCredentials u).1.origin = u.origin := by
  obtain ⟨authority, same, place⟩ := splitCredentials_eq u
  rw [same, Url.origin, Url.origin, place]

namespace RegistryClient

/-! ## The client's own addresses -/

theorem checked_eq_ok {r : Except UrlFault Url} {url : Url} (ok : checked r = .ok url) :
    r = .ok url := by
  cases r with
  | error fault => cases ok
  | ok url' =>
    cases ok
    rfl

variable {address : String} {credentials : Credentials} {pageSize : UInt64} {c : RegistryClient}

theorem make_eq_ok (made : make address credentials pageSize = .ok c) :
    c.address = trimmedAddress address ∧ Url.parse c.address = .ok c.base := by
  unfold make at made
  dsimp only at made
  cases base : checked (Url.parse (trimmedAddress address)) with
  | error e =>
    rw [base] at made
    cases made
  | ok url =>
    rw [base] at made
    cases made
    exact ⟨rfl, checked_eq_ok base⟩

theorem endpoint_eq_ok {path : String} {url : Url} :
    c.endpoint path = .ok url ↔
      Url.parse (c.address ++ "/" ++ ("v2" ++ "/" ++ path)) = .ok url := by
  have text : s!"{c.address}/v2/{path}" = c.address ++ "/" ++ ("v2" ++ "/" ++ path) :=
    String.toList_inj.mp (by simp [toString])
  rw [endpoint, text]
  refine ⟨checked_eq_ok, fun parsed => ?_⟩
  rw [parsed]
  rfl

theorem origin_endpoint (made : make address credentials pageSize = .ok c)
    (web : Url.isWeb c.base.scheme) {path : String} {url : Url} (found : c.endpoint path = .ok url) :
    url.origin = c.base.origin :=
  Url.origin_congr (Url.parse_extended (make_eq_ok made).2 web (endpoint_eq_ok.mp found))

/-! ## Addresses of requests -/

theorem inquiry_of_head {s : Session} {call : Call} {n : Negotiation} {later : List Negotiation}
    (split : c.negotiations s call = n :: later) : c.inquiry? call = .ok n.inquiry := by
  have head := c.head_negotiations s call
  rw [split] at head
  cases asks : c.inquiry? call with
  | error e =>
    rw [asks] at head
    cases head
  | ok q =>
    rw [asks] at head
    exact congrArg _ (Option.some.inj head).symm

/-- Both requests of a negotiation have the address of its inquiry, without credentials. -/
theorem url_of_tries {n : Negotiation} (orderly : n.Orderly c.credentials) {r : Request}
    {outcome : Except TransportFault Response} (tried : .sent r outcome ∈ n.tries) :
    r.url = (splitCredentials n.inquiry.url).1 := by
  obtain ⟨authorization, made⟩ := orderly.same _ tried
  exact (eq_of_request made.symm).2.1

end RegistryClient

end RegistryCache
