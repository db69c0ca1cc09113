import RegistryCache.Config.Files
import RegistryCache.Error
import RegistryCache.Time.Duration

/-! # How the registry is reached

Address, credentials and limits of the connection.  `RegistryConfig.fault?` names the first thing
that is wrong with them; `resolvePassword` finds the password, which is given either directly or in a
file.
-/

namespace RegistryCache

/-- How a registry is reached. -/
structure RegistryConfig where
  address : String
  username : Option String
  password : Option String
  /-- The file that holds the password, read if none is given directly. -/
  passwordFile : Option String
  skipTls : Bool
  timeout : UInt64
  pageSize : UInt64
  deriving DecidableEq, Repr

/-- What can be wrong with a configuration. -/
inductive ConfigFault where
  | emptyAddress
  | unknownScheme (address : String)
  | zeroTimeout
  | zeroPageSize
  | passwordWithoutUser
  | unreadablePassword (path : String) (reason : FileFault)
  deriving DecidableEq, Repr

namespace ConfigFault

/-- The fault as a person reads it. -/
def text : ConfigFault → String
  | .emptyAddress => "Registry address cannot be empty"
  | .unknownScheme address =>
    s!"Invalid registry address: {address}. Must start with http:// or https://"
  | .zeroTimeout => "Timeout must be greater than 0"
  | .zeroPageSize => "catalog_page_size must be greater than 0"
  | .passwordWithoutUser => "Username is required when password is provided"
  | .unreadablePassword path reason => s!"Cannot read password file {path}: {reason.text}"

def toError (fault : ConfigFault) : RegistryError := ⟨.validation, fault.text⟩

end ConfigFault

namespace RegistryConfig

/-- A registry on this machine, without credentials. -/
def standard : RegistryConfig where
  address := "http://localhost:5000"
  username := none
  password := none
  passwordFile := none
  skipTls := false
  timeout := 60
  pageSize := 100

/-- Whether an address begins with one of the two schemes. -/
def hasScheme (address : String) : Bool :=
  (Text.after? "http://".toList address.toList).isSome
    || (Text.after? "https://".toList address.toList).isSome

/-- The first thing that is wrong, in the order in which they are looked for. -/
def fault? (c : RegistryConfig) : Option ConfigFault :=
  if c.address.isEmpty then some .emptyAddress
  else if !hasScheme c.address then some (.unknownScheme c.address)
  else if c.timeout = 0 then some .zeroTimeout
  else if c.pageSize = 0 then some .zeroPageSize
  else if c.password.isSome && c.username.isNone then some .passwordWithoutUser
  else none

/-- Refuses a configuration with something wrong. -/
def validate (c : RegistryConfig) : Except RegistryError Unit :=
  match c.fault? with
  | some fault => .error fault.toError
  | none => .ok ()

def patience (c : RegistryConfig) : Duration := .ofSecs c.timeout

/-- The password that is given directly; an empty one is none. -/
def directPassword? (c : RegistryConfig) : Option String := c.password.filter (!·.isEmpty)

/-- The file that is read for the password, if one is. -/
def passwordPath? (c : RegistryConfig) : Option String :=
  match c.directPassword? with
  | some _ => none
  | none => c.passwordFile.filter (!·.isEmpty)

/-- A text without the line break at its end. -/
def withoutLineBreak (text : String) : String :=
  let cs := text.toList
  if cs.getLast? = some '\n' then String.ofList cs.dropLast else text

/-- The password: the one given directly, or what the file holds. -/
def resolvePassword (c : RegistryConfig) (files : Files) : Except RegistryError (Option String) :=
  match c.directPassword? with
  | some password => .ok (some password)
  | none =>
    match c.passwordPath? with
    | some path =>
      match files.text path with
      | .ok text => .ok (some (withoutLineBreak text))
      | .error reason => .error (ConfigFault.unreadablePassword path reason).toError
    | none => .ok none

end RegistryConfig

end RegistryCache
