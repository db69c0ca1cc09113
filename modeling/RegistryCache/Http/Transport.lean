import RegistryCache.Http.Message
import RegistryCache.Error

/-! # Transport

How requests meet their answers.  A `Transport` holds the replies that the other side has ready, one
for each request in the order in which they come; once they are used up, nothing is found any more.
It may also reach nobody at all, or nobody over a protected connection.  A request that gets no
response fails for one of a few reasons (`TransportFault`), and only those that a person can do
something about get wordings of their own.

Redirections are left to what carries the requests, which follows them by itself.  A `Transport` knows
the request that was handed over and the reply that was handed back in the end; it does not say where
redirections led in between, and has no reply for one that was given up.
-/

namespace RegistryCache

/-- What comes back of a request that reaches the other side, after any redirections on the way. -/
inductive Reply where
  /-- A response, to the last request if there were redirections. -/
  | response (r : Response)
  | dropped
  | silent
  deriving DecidableEq, Repr

/-- Why a request has no response. -/
inductive TransportFault where
  | unreachable (url : Url)
  | dropped (url : Url)
  | silent (url : Url)
  /-- The address is none that a request can be sent to. -/
  | badAddress (url : Url)
  /-- What should go into a header may not stand there. -/
  | badHeader
  deriving DecidableEq, Repr

namespace TransportFault

/-- The fault by itself. -/
def text : TransportFault → String
  | .unreachable url | .dropped url | .silent url => s!"error sending request for url ({url.text})"
  | .badAddress url => s!"builder error for url ({url.text})"
  | .badHeader => "builder error"

/-- Whether a word occurs in the text of the fault. -/
def mentions (fault : TransportFault) (word : String) : Bool :=
  Text.occursIn word.toList fault.text.toList

/-- The fault as the failure of an operation. -/
def toError (operation : String) (fault : TransportFault) : RegistryError :=
  match fault with
  | .silent _ => ⟨.timeout, s!"{operation} timeout: {fault.text}"⟩
  | .unreachable _ => ⟨.network, s!"Connection error during {operation}: {fault.text}"⟩
  | _ =>
    if fault.mentions "dns" then
      ⟨.network, s!"DNS resolution error for {operation}: {fault.text}"⟩
    else if fault.mentions "certificate" then
      ⟨.network, s!"TLS certificate error during {operation}: {fault.text}"⟩
    else ⟨.network, s!"{operation} network error: {fault.text}"⟩

end TransportFault

/-- The other side of all connections. -/
structure Transport where
  reachable : Bool
  replies : List Reply
  /-- The body of the answer once the replies are used up. -/
  ending : List UInt8
  /-- The requests that came, in order, as they were handed over: none that a redirection led to. -/
  requests : List Request
  /-- Whether protected connections come about, too. -/
  secured : Bool
  deriving DecidableEq, Repr

namespace Transport

def offline : Transport := ⟨false, [], [], [], false⟩

/-- The response to every request once the replies are used up: nothing is found. -/
def exhausted (t : Transport) : Response := ⟨⟨404⟩, [], t.ending, true⟩

/-- A response as it arrives: some have no body. -/
def arriving (method : Method) (r : Response) : Response :=
  if method = .head ∨ r.status.isBodiless then { r with body := [], complete := true } else r

/-- Whether an address can be connected to. -/
def connects (t : Transport) (url : Url) : Bool :=
  t.reachable && (url.scheme == Url.http || (t.secured && url.scheme == Url.https))

/-- Sends a request and hands back what comes of it.  This is one reply, also if redirections were
    followed on the way. -/
def send (t : Transport) (request : Request) : Except TransportFault Response × Transport :=
  if t.connects request.url then
    let sent := { t with
      replies := t.replies.tail
      requests := t.requests ++ [{ request with url := { request.url with fragment := none } }] }
    match t.replies with
    | [] => (.ok (arriving request.method t.exhausted), sent)
    | .response r :: _ => (.ok (arriving request.method r), sent)
    | .dropped :: _ => (.error (.dropped request.url), sent)
    | .silent :: _ => (.error (.silent request.url), sent)
  else (.error (.unreachable request.url), t)

end Transport

end RegistryCache
