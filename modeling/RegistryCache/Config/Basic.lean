import RegistryCache.Config.Registry
import RegistryCache.Policy
import RegistryCache.Log

/-! # The configuration of the program

The connection, the refresh policy, and how much the program says.
-/

namespace RegistryCache

/-- All that can be configured. -/
structure AppConfig where
  registry : RegistryConfig
  refresh : RefreshPolicy
  verbose : Bool
  quiet : Bool
  deriving DecidableEq, Repr

namespace AppConfig

def standard : AppConfig := ⟨.standard, .standard, false, false⟩

def validate (c : AppConfig) : Except RegistryError Unit := c.registry.validate

/-- How chatty the program is: quiet excludes all else. -/
def verbosity (c : AppConfig) : Verbosity := if c.quiet then .silent else ⟨c.verbose, false⟩

end AppConfig

end RegistryCache
