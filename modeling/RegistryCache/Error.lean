/-! # Failures

What can go wrong while the cache works, as one type.  A registry may fail for any reason of its
own, so a failure is a kind together with the words that describe it; `RegistryError.message` is the
only place where the two are put together.
-/

namespace RegistryCache

/-- The kinds of failure that a caller tells apart. -/
inductive ErrorKind where
  | network
  | registry
  | auth
  | parse
  | validation
  | timeout
  /-- A repository, tag or manifest does not exist. -/
  | notFound
  | file
  /-- The first catalog walk failed, so there is nothing to serve. -/
  | catalogUnavailable
  deriving DecidableEq, Repr

/-- How a message of each kind begins. -/
def ErrorKind.label : ErrorKind → String
  | .network => "Network error"
  | .registry => "Registry error"
  | .auth => "Authentication error"
  | .parse => "Parse error"
  | .validation => "Validation error"
  | .timeout => "Timeout"
  | .notFound => "Not found"
  | .file => "IO error"
  | .catalogUnavailable => "Catalog unavailable"

/-- A failure: its kind and what it says beyond that. -/
structure RegistryError where
  kind : ErrorKind
  detail : String
  deriving DecidableEq, Repr

def RegistryError.message (e : RegistryError) : String := s!"{e.kind.label}: {e.detail}"

end RegistryCache
