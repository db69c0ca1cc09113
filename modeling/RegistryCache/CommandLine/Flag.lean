import RegistryCache.Text.Decimal

/-! # Flags and commands

What may stand on a command line: five commands, each with its own words and flags, and flags that are
known to all of them.  A flag is a switch, takes a text or takes a number, and its kind is part of its
type, so a value of the wrong kind cannot arise.
-/

namespace RegistryCache.CommandLine

/-- Flags that are given or not. -/
inductive Switch where
  | skipTls | verbose | quiet | json
  deriving DecidableEq, Repr

/-- Flags that take a text. -/
inductive TextFlag where
  | address | username | password | passwordFile
  deriving DecidableEq, Repr

/-- Flags that take a number. -/
inductive NumberFlag where
  | timeout | pageSize | catalogInterval | tagsInterval | onlineMax | reportEvery | top
  deriving DecidableEq, Repr

/-- Anything that may be given with dashes. -/
inductive Flag where
  | switch (s : Switch)
  | text (t : TextFlag)
  | number (n : NumberFlag)
  | help
  | version
  deriving DecidableEq, Repr

/-- The commands. -/
inductive Verb where
  | watch | stats | browse | tags | delete
  deriving DecidableEq, Repr

/-! ## Names -/

/-- The flags that are known everywhere, by their long names. -/
def sharedFlags : List (String × Flag) :=
  [("registry", .text .address), ("username", .text .username), ("password", .text .password),
   ("password-file", .text .passwordFile), ("skip-tls", .switch .skipTls),
   ("timeout", .number .timeout), ("page-size", .number .pageSize),
   ("catalog-interval", .number .catalogInterval), ("tags-interval", .number .tagsInterval),
   ("online-max", .number .onlineMax), ("verbose", .switch .verbose), ("quiet", .switch .quiet),
   ("json", .switch .json), ("help", .help)]

/-- The flags that have a short name as well. -/
def shortFlags : List (Char × Flag) :=
  [('r', .text .address), ('u', .text .username), ('p', .text .password), ('k', .switch .skipTls),
   ('t', .number .timeout), ('v', .switch .verbose), ('q', .switch .quiet), ('h', .help)]

namespace Verb

/-- The commands by their names. -/
def all : List (String × Verb) :=
  [("watch", .watch), ("stats", .stats), ("browse", .browse), ("tags", .tags), ("delete", .delete)]

def ofName? (name : String) : Option Verb := all.lookup name

/-- The flags that only this command knows. -/
def ownFlags : Verb → List (String × Flag)
  | .watch => [("report-every", .number .reportEvery)]
  | .stats => [("top", .number .top)]
  | _ => []

/-- How many words may follow the command. -/
def mostWords : Verb → Nat
  | .watch | .stats => 0
  | .browse | .tags => 1
  | .delete => 2

/-- How many words must follow the command. -/
def leastWords : Verb → Nat
  | .watch | .stats | .browse => 0
  | .tags => 1
  | .delete => 2

end Verb

/-- Where on the line something stands: before the command or behind it. -/
inductive Place where
  | front
  | behind (verb : Verb)
  deriving DecidableEq, Repr

namespace Place

/-- The flag of a long name. -/
def longFlag? : Place → String → Option Flag
  | .front, name => (sharedFlags ++ [("version", Flag.version)]).lookup name
  | .behind verb, name => (sharedFlags ++ verb.ownFlags).lookup name

/-- The flag of a short name. -/
def shortFlag? : Place → Char → Option Flag
  | .front, c => (shortFlags ++ [('V', Flag.version)]).lookup c
  | .behind _, c => shortFlags.lookup c

end Place

end RegistryCache.CommandLine
