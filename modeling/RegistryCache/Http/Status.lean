import RegistryCache.Error

/-! # Status codes

An answer has a code between 100 and 999.  Codes from 200 to 299 are successes, any other one fails
the operation, and `Status.failure` says with which words.
-/

namespace RegistryCache

/-- A status code. -/
structure Status where
  code : Nat
  deriving DecidableEq, Repr

namespace Status

/-- The code that a number is, if it is one. -/
def ofNat? (n : Nat) : Option Status := if 100 ≤ n ∧ n ≤ 999 then some ⟨n⟩ else none

def isSuccess (s : Status) : Bool := 200 ≤ s.code && s.code ≤ 299

def isUnauthorized (s : Status) : Bool := s.code = 401

def isBodiless (s : Status) : Bool := s.code = 204 || s.code = 304

/-- The registered phrase of a code. -/
def phrase? (s : Status) : Option String :=
  match s.code with
  | 100 => some "Continue"
  | 101 => some "Switching Protocols"
  | 102 => some "Processing"
  | 103 => some "Early Hints"
  | 200 => some "OK"
  | 201 => some "Created"
  | 202 => some "Accepted"
  | 203 => some "Non Authoritative Information"
  | 204 => some "No Content"
  | 205 => some "Reset Content"
  | 206 => some "Partial Content"
  | 207 => some "Multi-Status"
  | 208 => some "Already Reported"
  | 226 => some "IM Used"
  | 300 => some "Multiple Choices"
  | 301 => some "Moved Permanently"
  | 302 => some "Found"
  | 303 => some "See Other"
  | 304 => some "Not Modified"
  | 305 => some "Use Proxy"
  | 307 => some "Temporary Redirect"
  | 308 => some "Permanent Redirect"
  | 400 => some "Bad Request"
  | 401 => some "Unauthorized"
  | 402 => some "Payment Required"
  | 403 => some "Forbidden"
  | 404 => some "Not Found"
  | 405 => some "Method Not Allowed"
  | 406 => some "Not Acceptable"
  | 407 => some "Proxy Authentication Required"
  | 408 => some "Request Timeout"
  | 409 => some "Conflict"
  | 410 => some "Gone"
  | 411 => some "Length Required"
  | 412 => some "Precondition Failed"
  | 413 => some "Payload Too Large"
  | 414 => some "URI Too Long"
  | 415 => some "Unsupported Media Type"
  | 416 => some "Range Not Satisfiable"
  | 417 => some "Expectation Failed"
  | 418 => some "I'm a teapot"
  | 421 => some "Misdirected Request"
  | 422 => some "Unprocessable Entity"
  | 423 => some "Locked"
  | 424 => some "Failed Dependency"
  | 425 => some "Too Early"
  | 426 => some "Upgrade Required"
  | 428 => some "Precondition Required"
  | 429 => some "Too Many Requests"
  | 431 => some "Request Header Fields Too Large"
  | 451 => some "Unavailable For Legal Reasons"
  | 500 => some "Internal Server Error"
  | 501 => some "Not Implemented"
  | 502 => some "Bad Gateway"
  | 503 => some "Service Unavailable"
  | 504 => some "Gateway Timeout"
  | 505 => some "HTTP Version Not Supported"
  | 506 => some "Variant Also Negotiates"
  | 507 => some "Insufficient Storage"
  | 508 => some "Loop Detected"
  | 510 => some "Not Extended"
  | 511 => some "Network Authentication Required"
  | _ => none

def text (s : Status) : String := s!"{s.code} " ++ s.phrase?.getD "<unknown status code>"

/-- The failure of an operation that was answered with a code and a text. -/
def failure (s : Status) (body operation : String) : RegistryError :=
  match s.code with
  | 401 => ⟨.auth, s!"Unauthorized to perform {operation} operation: {body}"⟩
  | 403 => ⟨.auth, s!"Forbidden: insufficient permissions for {operation}: {body}"⟩
  | 404 => ⟨.notFound, s!"Resource not found for {operation}: {body}"⟩
  | 405 => ⟨.registry,
      s!"Operation {operation} not allowed by registry (is deletion enabled?): {body}"⟩
  | 429 => ⟨.registry, s!"Rate limited during {operation}: {body}"⟩
  | 500 => ⟨.registry, s!"Registry server error during {operation}: {body}"⟩
  | 502 | 503 => ⟨.registry, s!"Registry unavailable for {operation}: {body}"⟩
  | 504 => ⟨.timeout, s!"Gateway timeout during {operation}: {body}"⟩
  | _ => ⟨.registry, s!"{operation} failed (status {s.text}): {body}"⟩

end Status

end RegistryCache
