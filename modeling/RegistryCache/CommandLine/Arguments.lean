import RegistryCache.CommandLine.Reader
import RegistryCache.Config.Basic

/-! # What a command line asks for

A line names a command and overrides parts of the configuration.  Only what is given changes anything:
texts and numbers replace what holds otherwise, and switches can only be turned on.
-/

namespace RegistryCache

/-- What the program is asked to do. -/
inductive Command where
  /-- Keep the cache in step with the registry until interrupted. -/
  | watch (reportEvery : UInt64)
  /-- Read everything once and show figures, with so many of the largest repositories. -/
  | stats (top : UInt64)
  | browse (path : String)
  | tags (repository : String)
  | delete (repository tag : String)
  deriving DecidableEq, Repr

/-- Parts of the configuration that are given in another place. -/
structure Overrides where
  address : Option String
  username : Option String
  password : Option String
  passwordFile : Option String
  skipTls : Bool
  timeout : Option UInt64
  pageSize : Option UInt64
  catalogInterval : Option UInt64
  tagsInterval : Option UInt64
  onlineMax : Option UInt64
  verbose : Bool
  quiet : Bool
  deriving DecidableEq, Repr

/-- The configuration with the given parts replaced. -/
def Overrides.apply (o : Overrides) (c : AppConfig) : AppConfig where
  registry :=
    { address := o.address.getD c.registry.address
      username := o.username.or c.registry.username
      password := o.password.or c.registry.password
      passwordFile := o.passwordFile.or c.registry.passwordFile
      skipTls := c.registry.skipTls || o.skipTls
      timeout := o.timeout.getD c.registry.timeout
      pageSize := o.pageSize.getD c.registry.pageSize }
  refresh :=
    { catalogInterval := o.catalogInterval.getD c.refresh.catalogInterval
      tagsInterval := o.tagsInterval.getD c.refresh.tagsInterval
      onlineMax := o.onlineMax.getD c.refresh.onlineMax }
  verbose := c.verbose || o.verbose
  quiet := c.quiet || o.quiet

/-- A command line that is understood. -/
structure Arguments where
  command : Command
  json : Bool
  overrides : Overrides
  deriving DecidableEq, Repr

namespace CommandLine

/-! ## Looking settings up -/

def hasSwitch (settings : List Setting) (s : Switch) : Bool := settings.contains (.on s)

/-- The first text given for a flag. -/
def textOf? (settings : List Setting) (flag : TextFlag) : Option String :=
  settings.findSome? fun
    | .text t value => if t = flag then some value else none
    | _ => none

/-- The first number given for a flag. -/
def numberOf? (settings : List Setting) (flag : NumberFlag) : Option UInt64 :=
  settings.findSome? fun
    | .number n value => if n = flag then some value else none
    | _ => none

/-! ## Arguments -/

/-- The overrides that settings describe. -/
def overridesOf (settings : List Setting) : Overrides where
  address := textOf? settings .address
  username := textOf? settings .username
  password := textOf? settings .password
  passwordFile := textOf? settings .passwordFile
  skipTls := hasSwitch settings .skipTls
  timeout := numberOf? settings .timeout
  pageSize := numberOf? settings .pageSize
  catalogInterval := numberOf? settings .catalogInterval
  tagsInterval := numberOf? settings .tagsInterval
  onlineMax := numberOf? settings .onlineMax
  verbose := hasSwitch settings .verbose
  quiet := hasSwitch settings .quiet

/-- The command that a verb, its words and its settings make up. -/
def commandOf (verb : Verb) (words : List String) (settings : List Setting) : Command :=
  match verb with
  | .watch => .watch ((numberOf? settings .reportEvery).getD 60)
  | .stats => .stats ((numberOf? settings .top).getD 10)
  | .browse => .browse (words.headD "")
  | .tags => .tags (words.headD "")
  | .delete => .delete (words.headD "") (words.tail.headD "")

end CommandLine

/-- Reads a command line, without the name of the program. -/
def Arguments.parse (line : List String) : Except CommandLine.Refusal Arguments := do
  let r ← CommandLine.read line
  return ⟨CommandLine.commandOf r.verb r.words r.settings,
    CommandLine.hasSwitch r.settings .json, CommandLine.overridesOf r.settings⟩

end RegistryCache
