import RegistryCache.Url.Host

/-! # Addresses

An address in its parts.  Text in a part is kept as it is written there, with everything encoded that
may not stand in that part, so `Url.text` only puts the parts together.
-/

namespace RegistryCache

/-- Who is asked: credentials, host and port. -/
structure Authority where
  username : List Char
  password : Option (List Char)
  host : Host
  /-- The port, unless it is the usual one of the scheme. -/
  port : Option Nat
  deriving DecidableEq, Repr

/-- What is asked for. -/
inductive UrlPath where
  /-- Segments, each with a slash before it. -/
  | segments (list : List (List Char))
  /-- Any text, of an address that has no authority. -/
  | opaqueText (text : List Char)
  deriving DecidableEq, Repr

/-- An address. -/
structure Url where
  scheme : List Char
  authority : Option Authority
  path : UrlPath
  query : Option (List Char)
  fragment : Option (List Char)
  deriving DecidableEq, Repr

namespace Url

/-! ## Schemes -/

def http : List Char := ['h', 't', 't', 'p']

/-- The scheme of requests over a protected connection. -/
def https : List Char := ['h', 't', 't', 'p', 's']

def file : List Char := ['f', 'i', 'l', 'e']

/-- Schemes that are known to have hosts, with their usual ports. -/
def usualPorts : List (List Char × Nat) :=
  [(http, 80), (https, 443), (['w', 's'], 80), (['w', 's', 's'], 443), (['f', 't', 'p'], 21)]

def usualPort? (scheme : List Char) : Option Nat := usualPorts.lookup scheme

/-- Whether a scheme is known, which makes a backslash in an address a slash. -/
def isKnown (scheme : List Char) : Bool := scheme == file || (usualPort? scheme).isSome

/-! ## Text -/

/-- The credentials in front of a host. -/
def credentialsText (a : Authority) : List Char :=
  match a.password with
  | some password => a.username ++ ':' :: password ++ ['@']
  | none => if a.username.isEmpty then [] else a.username ++ ['@']

/-- Credentials, host and port. -/
def authorityText (a : Authority) : List Char :=
  credentialsText a ++ a.host.text ++ match a.port with
    | some port => ':' :: Nat.toDigits 10 port
    | none => []

/-- The path. -/
def pathText : UrlPath → List Char
  | .segments list => list.flatMap ('/' :: ·)
  | .opaqueText text => text

/-- Whether a path without an authority could be taken for one. -/
def looksLikeAuthority : UrlPath → Bool
  | .segments ([] :: _ :: _) => true
  | _ => false

/-- The address up to its path. -/
def beforePath (u : Url) : List Char :=
  u.scheme ++ ':' :: match u.authority with
    | some a => '/' :: '/' :: authorityText a
    | none => if looksLikeAuthority u.path then ['/', '.'] else []

/-- A mark and the part behind it, if there is one. -/
def markedText (mark : Char) : Option (List Char) → List Char
  | some cs => mark :: cs
  | none => []

/-- The whole address. -/
def chars (u : Url) : List Char :=
  u.beforePath ++ pathText u.path ++ markedText '?' u.query ++ markedText '#' u.fragment

def text (u : Url) : String := String.ofList u.chars

/-! ## Changes -/

/-- Whether the address names a host. -/
def hasHost (u : Url) : Bool :=
  match u.authority with
  | some a => a.host != .domain []
  | none => false

/-- The address without credentials. -/
def withoutCredentials (u : Url) : Url :=
  { u with authority := u.authority.map fun a => { a with username := [], password := none } }

/-- Adds a named value to the query. -/
def addPair (u : Url) (name value : String) : Url :=
  let pair := Text.Percent.form name.toList ++ '=' :: Text.Percent.form value.toList
  { u with query := match u.query with
      | none | some [] => some pair
      | some query => some (query ++ '&' :: pair) }

/-- The same address with a query, which is empty if there was none. -/
def openQuery (u : Url) : Url := { u with query := some (u.query.getD []) }

end Url

end RegistryCache
