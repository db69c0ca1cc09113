import RegistryCache.Program.Run
import RegistryCache.Proofs.Json.Records
import RegistryCache.Proofs.Texts

/-! # Where the configuration comes from

A field of the configuration comes from its flag if this is given; else from its variable if this is
set and has a text that can be read; else it has its standard value (`ConfigField.Follows`).  Nothing
else has a say in it, so what changes for one field never shows in another
(`Arguments.config_follows`).
-/

namespace RegistryCache

/-! ## Texts of variables -/

namespace Text

/-- Digits that stand for a number of 64 bits, with at most one plus sign before them. -/
def Denotes (text : String) (w : UInt64) : Prop :=
  ∃ digits, Json.Spells digits w ∧ (text = digits ∨ text = "+" ++ digits)

/-- `1`, or `true` in any letter case. -/
def Affirms (text : String) : Prop :=
  text = "1" ∨
    List.Forall₂ (fun c letter => c = letter ∨ c = letter.toUpper) text.toList ['t', 'r', 'u', 'e']

theorem word?_eq_some_iff {text : String} {w : UInt64} : word? text = some w ↔ Denotes text w := by
  have spelled (cs : List Char) :
      (digits? cs).bind ofNat64? = some w ↔ Json.Spells (String.ofList cs) w := by
    simp [Option.bind_eq_some_iff, Json.digits?_eq_some_iff, Json.ofNat64?_eq_some_iff, Json.Spells]
  -- A plus sign is no digit, so the two ways to write a number exclude each other.
  have unsigned {digits : String} (spells : Json.Spells digits w) (rest : List Char) :
      digits.toList ≠ '+' :: rest := by
    intro signed
    have digit := spells.1.2 '+' (signed ▸ List.mem_cons_self)
    cases digit
  unfold word?
  dsimp only
  split
  · rename_i rest signed
    rw [spelled]
    constructor
    · intro spells
      exact ⟨_, spells, .inr (String.toList_inj.mp (by simp [signed]))⟩
    · rintro ⟨digits, spells, rfl | rfl⟩
      · exact absurd signed (unsigned spells rest)
      · have same : digits.toList = rest := by simpa using signed
        rwa [← same, String.ofList_toList]
  · rename_i bare
    rw [spelled, String.ofList_toList]
    constructor
    · intro spells
      exact ⟨text, spells, .inl rfl⟩
    · rintro ⟨digits, spells, rfl | rfl⟩
      · exact spells
      · exact (bare digits.toList (by simp)).elim

theorem lowerChar_eq_iff {c letter : Char} (small : letter ∈ ['t', 'r', 'u', 'e']) :
    lowerChar c = letter ↔ c = letter ∨ c = letter.toUpper := by
  have cases : letter = 't' ∨ letter = 'r' ∨ letter = 'u' ∨ letter = 'e' := by simpa using small
  have ascii : ∀ n < 128, (lowerChar (Char.ofNat n) = letter ↔
      Char.ofNat n = letter ∨ Char.ofNat n = letter.toUpper) := by
    rcases cases with rfl | rfl | rfl | rfl <;> decide
  have bounded : letter.toUpper.toNat < 128 := by
    rcases cases with rfl | rfl | rfl | rfl <;> decide
  by_cases known : c.toNat < 128
  · simpa using ascii c.toNat known
  · rw [lowerChar_of_le (Nat.not_lt.mp known)]
    constructor
    · exact .inl
    · rintro (same | same)
      · exact same
      · exact absurd (same ▸ bounded) known

theorem isOn_eq_true_iff (text : String) : AppConfig.isOn text = true ↔ Affirms text := by
  have lowered : lower ['t', 'r', 'u', 'e'] = ['t', 'r', 'u', 'e'] := by decide
  have letters : sameLetters text.toList ['t', 'r', 'u', 'e'] = true ↔
      List.Forall₂ (fun c letter => c = letter ∨ c = letter.toUpper) text.toList
        ['t', 'r', 'u', 'e'] := by
    rw [sameLetters, lowered, beq_iff_eq, lower, ← List.forall₂_eq_eq_eq, List.forall₂_map_left_iff]
    simp only [List.forall₂_cons_right_iff, List.forall₂_nil_right_iff, List.mem_cons, true_or,
      or_true, lowerChar_eq_iff]
  rw [AppConfig.isOn, Bool.or_eq_true, letters, beq_iff_eq, Affirms, or_comm]

end Text

/-! ## Fields -/

/-- A field of the configuration. -/
inductive ConfigField where
  | address
  | username
  | password
  | passwordFile
  | skipTls
  | timeout
  | pageSize
  | catalogInterval
  | tagsInterval
  | onlineMax
  | verbose
  | quiet
  deriving DecidableEq

namespace ConfigField

/-- What a field holds. -/
def Value : ConfigField → Type
  | address => String
  | username | password | passwordFile => Option String
  | timeout | pageSize | catalogInterval | tagsInterval | onlineMax => UInt64
  | skipTls | verbose | quiet => Bool

def get (c : AppConfig) : (f : ConfigField) → f.Value
  | address => c.registry.address
  | username => c.registry.username
  | password => c.registry.password
  | passwordFile => c.registry.passwordFile
  | skipTls => c.registry.skipTls
  | timeout => c.registry.timeout
  | pageSize => c.registry.pageSize
  | catalogInterval => c.refresh.catalogInterval
  | tagsInterval => c.refresh.tagsInterval
  | onlineMax => c.refresh.onlineMax
  | verbose => c.verbose
  | quiet => c.quiet

/-- There are no other fields. -/
theorem get_injective {c c' : AppConfig} (same : ∀ f, get c f = get c' f) : c = c' := by
  obtain ⟨⟨_, _, _, _, _, _, _⟩, ⟨_, _, _⟩, _, _⟩ := c
  obtain ⟨⟨_, _, _, _, _, _, _⟩, ⟨_, _, _⟩, _, _⟩ := c'
  cases same address
  cases same username
  cases same password
  cases same passwordFile
  cases same skipTls
  cases same timeout
  cases same pageSize
  cases same catalogInterval
  cases same tagsInterval
  cases same onlineMax
  cases same verbose
  cases same quiet
  rfl

/-- What the flag of a field gives, if it is there. -/
def flag? (o : Overrides) : (f : ConfigField) → Option f.Value
  | address => o.address
  | username => o.username.map some
  | password => o.password.map some
  | passwordFile => o.passwordFile.map some
  | skipTls => if o.skipTls then some true else none
  | timeout => o.timeout
  | pageSize => o.pageSize
  | catalogInterval => o.catalogInterval
  | tagsInterval => o.tagsInterval
  | onlineMax => o.onlineMax
  | verbose => if o.verbose then some true else none
  | quiet => if o.quiet then some true else none

def all : List ConfigField :=
  [address, username, password, passwordFile, skipTls, timeout, pageSize, catalogInterval,
    tagsInterval, onlineMax, verbose, quiet]

/-- The name of the variable of a field. -/
def variableName? : ConfigField → Option String
  | address => some "REGISTRY_CACHE_ADDRESS"
  | username => some "REGISTRY_CACHE_USERNAME"
  | password => some "REGISTRY_CACHE_PASSWORD"
  | passwordFile => some "REGISTRY_CACHE_PASSWORD_FILE"
  | skipTls => some "REGISTRY_CACHE_SKIP_TLS"
  | timeout => some "REGISTRY_CACHE_TIMEOUT"
  | pageSize => some "REGISTRY_CACHE_CATALOG_PAGE_SIZE"
  | catalogInterval => some "REGISTRY_CACHE_CATALOG_INTERVAL"
  | tagsInterval => some "REGISTRY_CACHE_TAGS_INTERVAL"
  | onlineMax => some "REGISTRY_CACHE_TAGS_ONLINE_MAX"
  | verbose => some "REGISTRY_CACHE_VERBOSE"
  | quiet => none

/-- No two fields share a variable. -/
theorem variableName?_injective {f f' : ConfigField} {name : String}
    (own : f.variableName? = some name) (own' : f'.variableName? = some name) : f = f' := by
  have apart : ∀ f ∈ all, ∀ f' ∈ all, f.variableName? = f'.variableName? →
      f.variableName?.isSome → f = f' := by decide +kernel
  have listed (f : ConfigField) : f ∈ all := by cases f <;> decide
  exact apart f (listed f) f' (listed f') (own.trans own'.symm) (by rw [own]; rfl)

/-- What a text means for a field. -/
def Says (text : String) : (f : ConfigField) → f.Value → Prop
  | address => fun v => v = text
  | username | password | passwordFile => fun v => v = some text
  | timeout | pageSize | catalogInterval | tagsInterval | onlineMax => fun w => Text.Denotes text w
  | skipTls | verbose | quiet => fun b => b = true ↔ Text.Affirms text

/-- What a field has where neither flag nor variable say anything. -/
def standard : (f : ConfigField) → f.Value
  | address => "http://localhost:5000"
  | username | password | passwordFile => (none : Option String)
  | skipTls | verbose | quiet => false
  | timeout | tagsInterval => (60 : UInt64)
  | pageSize | onlineMax => (100 : UInt64)
  | catalogInterval => (10 : UInt64)

/-- The value of a field comes from its flag, or else from its variable, or else it is the standard
    one. -/
structure Follows (o : Overrides) (environment : AppConfig.Environment) (f : ConfigField)
    (v : f.Value) : Prop where
  flag : ∀ given, flag? o f = some given → v = given
  said : flag? o f = none → ∀ name text value, f.variableName? = some name →
    environment name = some text → Says text f value → v = value
  otherwise : flag? o f = none → (∀ name text value, f.variableName? = some name →
    environment name = some text → ¬ Says text f value) → v = f.standard

/-! ## Readings -/

/-- What is read from the text of a variable. -/
def read? (text : String) : (f : ConfigField) → Option f.Value
  | address => some text
  | username | password | passwordFile => some (some text)
  | timeout | pageSize | catalogInterval | tagsInterval | onlineMax => Text.word? text
  | skipTls | verbose | quiet => some (AppConfig.isOn text)

theorem read?_eq_some_iff {text : String} {f : ConfigField} {v : f.Value} :
    read? text f = some v ↔ Says text f v := by
  have switch (b : Bool) : some (AppConfig.isOn text) = some b ↔ (b = true ↔ Text.Affirms text) := by
    rw [← Text.isOn_eq_true_iff, Option.some.injEq, Bool.eq_iff_iff]
    exact Iff.comm
  cases f with
  | address | username | password | passwordFile => exact (Option.some.injEq ..).to_iff.trans Eq.comm
  | timeout | pageSize | catalogInterval | tagsInterval | onlineMax => exact Text.word?_eq_some_iff
  | skipTls | verbose | quiet => exact switch v

/-- What the environment has for a field, if anything. -/
def said? (environment : AppConfig.Environment) (f : ConfigField) : Option f.Value :=
  (f.variableName?.bind environment).bind (read? · f)

/-- What the name of the variable of a field ends in. -/
def variableEnd? : ConfigField → Option String
  | address => some "ADDRESS"
  | username => some "USERNAME"
  | password => some "PASSWORD"
  | passwordFile => some "PASSWORD_FILE"
  | skipTls => some "SKIP_TLS"
  | timeout => some "TIMEOUT"
  | pageSize => some "CATALOG_PAGE_SIZE"
  | catalogInterval => some "CATALOG_INTERVAL"
  | tagsInterval => some "TAGS_INTERVAL"
  | onlineMax => some "TAGS_ONLINE_MAX"
  | verbose => some "VERBOSE"
  | quiet => none

theorem variableName?_eq (f : ConfigField) :
    f.variableName? = f.variableEnd?.map (AppConfig.variableStart ++ ·) := by
  cases f <;> decide +kernel

theorem get_ofEnvironment (environment : AppConfig.Environment) (f : ConfigField) :
    get (.ofEnvironment environment) f = (said? environment f).getD f.standard := by
  have required (given : Option String) (known : String) :
      given.getD known = (given.bind some).getD known := by cases given <;> rfl
  have optional (given : Option String) :
      given = (given.bind fun text => some (some text)).getD none := by cases given <;> rfl
  have switch (given : Option String) : (given.map AppConfig.isOn).getD false =
      (given.bind fun text => some (AppConfig.isOn text)).getD false := by cases given <;> rfl
  rw [said?, variableName?_eq]
  cases f with
  | address => exact required _ _
  | username | password | passwordFile => exact optional _
  | timeout | pageSize | catalogInterval | tagsInterval | onlineMax => rfl
  | skipTls | verbose => exact switch _
  | quiet => rfl

theorem get_apply (o : Overrides) (c : AppConfig) (f : ConfigField) :
    get (o.apply c) f = (flag? o f).getD (get c f) := by
  have kept (given : Option String) (known : Option String) :
      given.or known = (given.map some).getD known := by cases given <;> rfl
  have raised (known given : Bool) :
      (known || given) = (if given then some true else none).getD known := by
    cases known <;> cases given <;> rfl
  cases f with
  | address | timeout | pageSize | catalogInterval | tagsInterval | onlineMax => rfl
  | username | password | passwordFile => exact kept _ _
  | skipTls | verbose | quiet => exact raised _ _

theorem get_config (a : Arguments) (environment : AppConfig.Environment) (f : ConfigField) :
    get (a.config environment) f =
      (flag? a.overrides f).getD ((said? environment f).getD f.standard) := by
  rw [Arguments.config, get_apply, get_ofEnvironment]

theorem said?_eq_some_iff {environment : AppConfig.Environment} {f : ConfigField} {v : f.Value} :
    said? environment f = some v ↔
      ∃ name text, f.variableName? = some name ∧ environment name = some text ∧ Says text f v := by
  simp only [said?, Option.bind_eq_some_iff, read?_eq_some_iff]
  constructor
  · rintro ⟨text, ⟨name, own, found⟩, reads⟩
    exact ⟨name, text, own, found, reads⟩
  · rintro ⟨name, text, own, found, reads⟩
    exact ⟨text, ⟨name, own, found⟩, reads⟩

theorem follows_config (a : Arguments) (environment : AppConfig.Environment) (f : ConfigField) :
    Follows a.overrides environment f (get (a.config environment) f) := by
  rw [get_config]
  constructor
  · intro given flagged
    rw [flagged]
    rfl
  · intro bare name text value own found reads
    rw [bare, said?_eq_some_iff.mpr ⟨name, text, own, found, reads⟩]
    rfl
  · intro bare silent
    have unsaid : said? environment f = none := by
      rw [Option.eq_none_iff_forall_ne_some]
      intro value said
      obtain ⟨name, text, own, found, reads⟩ := said?_eq_some_iff.mp said
      exact silent name text value own found reads
    rw [bare, unsaid]
    rfl

/-- A field sees nothing but its own flag and its own variable. -/
theorem get_config_congr {a a' : Arguments} {environment environment' : AppConfig.Environment}
    {f : ConfigField} (flags : flag? a.overrides f = flag? a'.overrides f)
    (texts : ∀ name, f.variableName? = some name → environment name = environment' name) :
    get (a.config environment) f = get (a'.config environment') f := by
  have same : said? environment f = said? environment' f := by
    unfold said?
    cases own : f.variableName? with
    | none => rfl
    | some name => rw [Option.bind_some, Option.bind_some, texts name own]
  rw [get_config, get_config, flags, same]

end ConfigField

/-! ## The law -/

theorem Overrides.apply_apply (o : Overrides) (c : AppConfig) : o.apply (o.apply c) = o.apply c := by
  refine ConfigField.get_injective fun f => ?_
  rw [ConfigField.get_apply, ConfigField.get_apply]
  cases ConfigField.flag? o f <;> rfl

theorem AppConfig.switch_eq_true_iff (given : Option String) :
    (given.map isOn).getD false = true ↔ ∃ text, given = some text ∧ Text.Affirms text := by
  cases given with
  | none => simp
  | some text => simp [Text.isOn_eq_true_iff]

open ConfigField in
/-- Whatever is given on a command line and set in the environment: each field comes from its flag, or
    else from its variable, or else it has its standard value; a switch is on exactly if its flag is
    given or its variable affirms it.  What changes at the flag and the variable of one field shows in no
    other field, and what is applied a second time changes nothing any more. -/
theorem Arguments.config_follows (a : Arguments) (environment : AppConfig.Environment) :
    (∀ f, Follows a.overrides environment f (get (a.config environment) f)) ∧
    ((a.config environment).registry.skipTls = true ↔ a.overrides.skipTls = true ∨
      ∃ text, environment "REGISTRY_CACHE_SKIP_TLS" = some text ∧ Text.Affirms text) ∧
    ((a.config environment).verbose = true ↔ a.overrides.verbose = true ∨
      ∃ text, environment "REGISTRY_CACHE_VERBOSE" = some text ∧ Text.Affirms text) ∧
    ((a.config environment).quiet = true ↔ a.overrides.quiet = true) ∧
    (∀ (f : ConfigField) (a' : Arguments) (environment' : AppConfig.Environment),
      (∀ other ≠ f, flag? a.overrides other = flag? a'.overrides other) →
      (∀ name, f.variableName? ≠ some name → environment name = environment' name) →
      ∀ other ≠ f, get (a.config environment) other = get (a'.config environment') other) ∧
    ∀ c, a.overrides.apply (a.overrides.apply c) = a.overrides.apply c := by
  have skipping : AppConfig.variableStart ++ "SKIP_TLS" = "REGISTRY_CACHE_SKIP_TLS" := by
    decide +kernel
  have talking : AppConfig.variableStart ++ "VERBOSE" = "REGISTRY_CACHE_VERBOSE" := by
    decide +kernel
  have switch (known given : Bool) : (known || given) = true ↔ given = true ∨ known = true := by
    rw [Bool.or_eq_true, or_comm]
  refine ⟨follows_config a environment, ?_, ?_, ?_, ?_, a.overrides.apply_apply⟩
  · rw [← skipping, ← AppConfig.switch_eq_true_iff]
    exact switch _ _
  · rw [← talking, ← AppConfig.switch_eq_true_iff]
    exact switch _ _
  · exact iff_of_eq (congrArg (· = true) (Bool.false_or a.overrides.quiet))
  · intro f a' environment' flags texts other apart
    refine get_config_congr (flags other apart) fun name own => texts name ?_
    intro shared
    exact apart (variableName?_injective own shared)

end RegistryCache
