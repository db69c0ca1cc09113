import RegistryCache.Proofs.Addresses.Extension

/-! # Whom a reference asks

Against an address of the web a reference has two readings.  Mostly it stays with the scheme and the
authority of the base; but if it has another scheme or begins with two slashes it names its own
(`Url.Reference.namesHost`), and the base does not matter except for a scheme that is left out.
-/

namespace RegistryCache

namespace Url

variable {base u : Url} {place : List (List Char)} {r : Reference}

/-- An address of the web has segments. -/
theorem path_parse {text : String} (parsed : parse text = .ok u) (web : isWeb u.scheme) :
    ∃ place, u.path = .segments place :=
  (withAuthority_eq_ok (resolve_none_eq_ok parsed web).2).2.1

/-! ## Staying -/

end Url

end RegistryCache
