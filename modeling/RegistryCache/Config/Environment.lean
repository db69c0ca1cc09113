import RegistryCache.Config.Basic
import RegistryCache.Text.Decimal

/-! # Configuration from the environment

Each variable sets one field on top of what holds otherwise.  A number that cannot be read is passed
over, and a switch is on for `1` and for `true` in any letter case.
-/

namespace RegistryCache.AppConfig

/-- What the environment gives for the name of a variable. -/
abbrev Environment := String → Option String

def variableStart : String := "REGISTRY_CACHE_"

/-- What the names of the variables end in. -/
def variableEnds : List String :=
  ["ADDRESS", "USERNAME", "PASSWORD", "PASSWORD_FILE", "SKIP_TLS", "TIMEOUT", "CATALOG_PAGE_SIZE",
    "CATALOG_INTERVAL", "TAGS_INTERVAL", "TAGS_ONLINE_MAX", "VERBOSE"]

def variableNames : List String := variableEnds.map (variableStart ++ ·)

/-- Whether the text of a variable turns a switch on. -/
def isOn (text : String) : Bool :=
  Text.sameLetters text.toList ['t', 'r', 'u', 'e'] || text == "1"

/-- The configuration that the environment asks for. -/
def ofEnvironment (environment : Environment) : AppConfig :=
  let given (name : String) : Option String := environment (variableStart ++ name)
  let number (name : String) : Option UInt64 := (given name).bind Text.word?
  let switch (name : String) : Bool := ((given name).map isOn).getD false
  { registry :=
      { address := (given "ADDRESS").getD RegistryConfig.standard.address
        username := given "USERNAME"
        password := given "PASSWORD"
        passwordFile := given "PASSWORD_FILE"
        skipTls := switch "SKIP_TLS"
        timeout := (number "TIMEOUT").getD RegistryConfig.standard.timeout
        pageSize := (number "CATALOG_PAGE_SIZE").getD RegistryConfig.standard.pageSize }
    refresh :=
      { catalogInterval := (number "CATALOG_INTERVAL").getD RefreshPolicy.standard.catalogInterval
        tagsInterval := (number "TAGS_INTERVAL").getD RefreshPolicy.standard.tagsInterval
        onlineMax := (number "TAGS_ONLINE_MAX").getD RefreshPolicy.standard.onlineMax }
    verbose := switch "VERBOSE"
    quiet := false }

end RegistryCache.AppConfig
