import RegistryCache.Text.Basic

/-! # Challenges

A registry that wants to know who asks answers with a challenge: a scheme, a blank, and parameters
between commas.  Values may stand in quotes, and a comma inside quotes separates nothing.  Two schemes
are understood: the one that wants credentials at once, and the one that names a realm where a token
is handed out for them.
-/

namespace RegistryCache

/-- How a registry wants to be asked. -/
inductive Challenge where
  | basic
  | bearer (realm : String) (service scope : Option String)
  deriving DecidableEq, Repr

namespace Challenge

open Text (cut? lower sameLetters trim trimMark)

/-! ## Parameters -/

/-- The pieces between commas that stand outside quotes; the flag says that quotes are open. -/
def segments (quoted : Bool) : List Char → List (List Char)
  | [] => [[]]
  | c :: rest =>
    if c = ',' ∧ quoted = false then [] :: segments quoted rest
    else match segments (if c = '"' then !quoted else quoted) rest with
      | [] => [[c]]
      | piece :: more => (c :: piece) :: more

/-- The key and the value of a parameter: blanks around both go, letters of the key are lowered, and
    quotes around the value go. -/
def parameter? (piece : List Char) : Option (List Char × List Char) :=
  (cut? '=' piece).map fun (key, value) => (lower (trim key), trimMark '"' (trim value))

/-- All parameters in order. -/
def parameters (cs : List Char) : List (List Char × List Char) :=
  (segments false cs).filterMap parameter?

/-- The value of a key; a later one replaces an earlier one. -/
def value? (params : List (List Char × List Char)) (key : String) : Option String :=
  (params.reverse.lookup key.toList).map String.ofList

/-! ## The whole -/

/-- Reads a challenge, if it is one of the two that are understood. -/
def parse? (text : String) : Option Challenge :=
  let cs := trim text.toList
  let (scheme, rest) := (cut? ' ' cs).getD (cs, [])
  if sameLetters scheme ['b', 'a', 's', 'i', 'c'] then some .basic
  else if sameLetters scheme ['b', 'e', 'a', 'r', 'e', 'r'] then
    let params := parameters rest
    (value? params "realm").map fun realm =>
      .bearer realm (value? params "service") (value? params "scope")
  else none

/-! ## Description -/

/-- A text in quotes, with marks that could be mistaken written behind a backslash. -/
def quoted (text : String) : String :=
  String.ofList ('"' :: text.toList.flatMap (fun c =>
    if c = '"' ∨ c = '\\' then ['\\', c]
    else if c = '\t' then ['\\', 't']
    else if c = '\n' then ['\\', 'n']
    else if c = '\r' then ['\\', 'r']
    else [c]) ++ ['"'])

/-- A text in quotes, or that there is none. -/
def quotedOption : Option String → String
  | some text => s!"Some({quoted text})"
  | none => "None"

/-- The challenge as it is reported. -/
def description : Challenge → String
  | .basic => "Basic"
  | .bearer realm service scope =>
    Text.join ", " [s!"Bearer \x7b realm: {quoted realm}", s!"service: {quotedOption service}",
      s!"scope: {quotedOption scope} \x7d"]

end Challenge

end RegistryCache
