import RegistryCache.Url.Basic

/-! # Reading addresses

A text is read as a `Reference`: a scheme where it has one, a body, a query and a fragment.  Together
with a base it names an address (`Url.resolve`): what the reference leaves out comes from the base.
Dot segments are resolved on the way, and each part is encoded as its place demands.
-/

namespace RegistryCache

namespace Url

/-! ## What is encoded where -/

def fragmentEscaped (c : Char) : Bool := [' ', '"', '<', '>', '\x60'].contains c

def pathEscaped (c : Char) : Bool := fragmentEscaped c || ['#', '?', '\x7b', '\x7d'].contains c

/-- Characters encoded in a query; a quotation mark only if the scheme is known. -/
def queryEscaped (known : Bool) (c : Char) : Bool :=
  [' ', '"', '#', '<', '>'].contains c || (known && c == '\'')

/-- Characters encoded in credentials. -/
def credentialsEscaped (c : Char) : Bool :=
  pathEscaped c || ['/', ':', ';', '=', '@', '[', '\\', ']', '^', '|'].contains c

/-! ## References -/

/-- A text in its parts, which are not yet encoded. -/
structure Reference where
  scheme : Option (List Char)
  body : List Char
  query : Option (List Char)
  fragment : Option (List Char)
  deriving DecidableEq, Repr

/-- A text without controls and blanks at its ends, and without tabs and line breaks. -/
def cleaned (cs : List Char) : List Char :=
  (Text.trimBy (·.toNat ≤ 0x20) cs).filter fun c => c != '\t' && c != '\n' && c != '\r'

/-- What stands before a mark and what stands behind it. -/
def cutMark (mark : Char) (cs : List Char) : List Char × Option (List Char) :=
  match Text.cut? mark cs with
  | some (before, after) => (before, some after)
  | none => (cs, none)

/-- Whether a character may stand in a scheme after the first one. -/
def schemeChar (c : Char) : Bool := c.isAlphanum || c == '+' || c == '-' || c == '.'

/-- The scheme in front of a text, in lower case, and what follows its colon. -/
def cutScheme? (cs : List Char) : Option (List Char × List Char) :=
  match Text.cut? ':' cs with
  | some (c :: scheme, rest) =>
    if c.isAlpha && scheme.all schemeChar then some (Text.lower (c :: scheme), rest) else none
  | _ => none

/-- A text in its parts. -/
def Reference.ofChars (cs : List Char) : Reference :=
  let (rest, fragment) := cutMark '#' (cleaned cs)
  let (rest, query) := cutMark '?' rest
  match cutScheme? rest with
  | some (scheme, body) => ⟨some scheme, body, query, fragment⟩
  | none => ⟨none, rest, query, fragment⟩

/-! ## Paths -/

def isSlash (known : Bool) (c : Char) : Bool := c == '/' || (known && c == '\\')

/-- Whether a segment stands for the one that it is in. -/
def isDot (segment : List Char) : Bool :=
  let s := Text.lower segment
  s == ['.'] || s == ['%', '2', 'e']

/-- Whether a segment stands for the one above. -/
def isDoubleDot (segment : List Char) : Bool :=
  let s := Text.lower segment
  s == ['.', '.'] || s == ['.', '%', '2', 'e'] || s == ['%', '2', 'e', '.']
    || s == ['%', '2', 'e', '%', '2', 'e']

/-- Goes along segments from a place. -/
def walk : List (List Char) → List (List Char) → List (List Char)
  | place, [] => place
  | place, segment :: rest =>
    if isDoubleDot segment then
      walk (if rest.isEmpty then place.dropLast ++ [[]] else place.dropLast) rest
    else if isDot segment then walk (if rest.isEmpty then place ++ [[]] else place) rest
    else walk (place ++ [Text.Percent.encode pathEscaped segment]) rest

def segmentsOf (known : Bool) (cs : List Char) : List (List Char) := cs.splitOnP (isSlash known)

/-- The path that a text without its first slash leads to from a place. -/
def pathFrom (known : Bool) (place : List (List Char)) (cs : List Char) : UrlPath :=
  .segments (walk place (segmentsOf known cs))

/-! ## Authorities -/

/-- The last of some marks in a text: what stands before and behind it. -/
def cutLast? (mark : Char) (cs : List Char) : Option (List Char × List Char) :=
  (Text.cut? mark cs.reverse).map fun (after, before) => (before.reverse, after.reverse)

/-- The name and the password in front of a host; an empty password is none. -/
def credentials (cs : List Char) : List Char × Option (List Char) :=
  let encode := Text.Percent.encode credentialsEscaped
  match Text.cut? ':' cs with
  | some (name, []) => (encode name, none)
  | some (name, password) => (encode name, some (encode password))
  | none => (encode cs, none)

/-- The host in front of a text and what follows it: a colon ends a host outside of brackets. -/
def cutHost (bracket : Bool) : List Char → List Char × List Char
  | [] => ([], [])
  | c :: rest =>
    if c = ':' ∧ bracket = false then ([], c :: rest)
    else
      let (host, after) := cutHost (if c = '[' then true else if c = ']' then false else bracket) rest
      (c :: host, after)

/-- Reads further digits of a port; a slash ends it. -/
def portDigits : Nat → List Char → Except UrlFault Nat
  | value, [] => .ok value
  | value, c :: rest =>
    match Text.digitValue? c with
    | some d => if 65535 < value * 10 + d then .error .badPort else portDigits (value * 10 + d) rest
    | none => .error .badPort

/-- Reads a port, if there is one and it is not the usual one. -/
def readPort (scheme cs : List Char) : Except UrlFault (Option Nat) := do
  let n ← portDigits 0 cs
  return if cs.isEmpty ∨ usualPort? scheme = some n then none else some n

/-- Reads the host of a scheme. -/
def readHost (scheme cs : List Char) : Except UrlFault Host :=
  if isKnown scheme then if cs.isEmpty then .error .emptyHost else Host.parse cs
  else Host.parseOpaque cs

/-- Reads an authority; the flag says that a path, query or fragment follows it. -/
def readAuthority (scheme cs : List Char) (followed : Bool) : Except UrlFault Authority := do
  let (front, rest) ← match cutLast? '@' cs with
    | none => .ok (none, cs)
    | some ([], []) => if followed then .error .emptyHost else .ok (none, [])
    | some ([], rest) => .ok (none, rest)
    | some (front, rest) => .ok (some front, rest)
  let (name, password) := credentials (front.getD [])
  let (hostText, rest) := cutHost false rest
  let host ← readHost scheme hostText
  if host = .domain [] ∧ (!rest.isEmpty ∨ !name.isEmpty ∨ password.isSome) then .error .emptyHost
  else
    let port ← readPort scheme (rest.drop 1)
    return ⟨name, password, host, port⟩

/-! ## Putting parts together -/

/-- A query as it stands in an address of a scheme. -/
def encodeQuery (scheme : List Char) (query : Option (List Char)) : Option (List Char) :=
  query.map (Text.Percent.encode (queryEscaped (isKnown scheme)))

/-- A fragment as it stands in an address. -/
def encodeFragment (fragment : Option (List Char)) : Option (List Char) :=
  fragment.map (Text.Percent.encode fragmentEscaped)

/-- An address with the query and the fragment of a reference. -/
def assemble (scheme : List Char) (authority : Option Authority) (path : UrlPath) (r : Reference) :
    Url :=
  ⟨scheme, authority, path, encodeQuery scheme r.query, encodeFragment r.fragment⟩

/-- Whether anything but an authority ends where a text does. -/
def hasMore (rest : List Char) (r : Reference) : Bool :=
  !rest.isEmpty || r.query.isSome || r.fragment.isSome

/-- An address whose authority and path stand in a text, behind the slashes. -/
def withAuthority (scheme cs : List Char) (r : Reference) : Except UrlFault Url := do
  let known := isKnown scheme
  let front := cs.takeWhile fun c => !isSlash known c
  let rest := cs.dropWhile fun c => !isSlash known c
  let authority ← readAuthority scheme front (hasMore rest r)
  let path := match rest with
    | [] => if known then .segments [[]] else .segments []
    | _ :: rest => pathFrom known [] rest
  return assemble scheme (some authority) path r

/-- A path of files: empty segments in front do not count. -/
def filePath : UrlPath → UrlPath
  | .segments list =>
    match list.dropWhile List.isEmpty with
    | [] => .segments [[]]
    | list => .segments list
  | path => path

def thisMachine : Authority := ⟨[], none, .domain [], none⟩

/-- The host of a file, where a name for this machine is none. -/
def fileHost (cs : List Char) : Except UrlFault Host := do
  if cs.isEmpty then return .domain []
  let host ← Host.parse cs
  return if host = .domain ['l', 'o', 'c', 'a', 'l', 'h', 'o', 's', 't'] then .domain [] else host

/-- The address of a file: with a host behind two slashes, else on the machine of the base. -/
def fileUrl (base : Option Url) (r : Reference) : Except UrlFault Url := do
  let place := (base.bind (·.authority)).getD thisMachine
  match r.body with
  | a :: b :: rest =>
    if isSlash true a && isSlash true b then
      let host ← fileHost (rest.takeWhile fun c => !isSlash true c)
      let path := (rest.dropWhile fun c => !isSlash true c).drop 1
      return assemble file (some { thisMachine with host := host })
        (filePath (pathFrom true [] path)) r
    else if isSlash true a then
      return assemble file (some place) (filePath (pathFrom true [] (b :: rest))) r
    else return assemble file (some place) (filePath (pathFrom true (above base) r.body)) r
  | [c] =>
    if isSlash true c then return assemble file (some place) (.segments [[]]) r
    else return assemble file (some place) (filePath (pathFrom true (above base) [c])) r
  | [] =>
    match base with
    | some base => return unchanged base r
    | none => return assemble file (some place) (.segments [[]]) r
where
  /-- The place above a base. -/
  above (base : Option Url) : List (List Char) :=
    match base.map (·.path) with
    | some (UrlPath.segments list) => list.dropLast
    | _ => []
  /-- A base with another query or fragment. -/
  unchanged (base : Url) (r : Reference) : Url :=
    { base with
      query := if r.query.isSome then encodeQuery base.scheme r.query else base.query
      fragment := encodeFragment r.fragment }

/-- An address that a reference without a scheme of its own names, from a base with segments. -/
def relative (base : Url) (place : List (List Char)) (r : Reference) : Except UrlFault Url :=
  let known := isKnown base.scheme
  match r.body with
  | [] => .ok (fileUrl.unchanged base r)
  | '/' :: '/' :: rest => withAuthority base.scheme rest r
  | a :: rest =>
    if isSlash true a then
      match rest with
      | b :: _ =>
        if isSlash true b then withAuthority base.scheme (rest.dropWhile (isSlash true)) r
        else .ok (assemble base.scheme base.authority (pathFrom known [] rest) r)
      | [] => .ok (assemble base.scheme base.authority (pathFrom known [] rest) r)
    else .ok (assemble base.scheme base.authority (pathFrom known place.dropLast r.body) r)

/-- The address that a reference names, from a base where it needs one. -/
def resolve (base : Option Url) (r : Reference) : Except UrlFault Url :=
  match r.scheme with
  | some scheme =>
    if scheme = file then fileUrl (base.filter (·.scheme = file)) r
    else if isKnown scheme then
      let slashes := (r.body.takeWhile (isSlash true)).length
      match base with
      | some ⟨bScheme, bAuthority, .segments place, bQuery, bFragment⟩ =>
        if slashes < 2 ∧ bScheme = scheme then
          relative ⟨bScheme, bAuthority, .segments place, bQuery, bFragment⟩ place r
        else withAuthority scheme (r.body.drop slashes) r
      | _ => withAuthority scheme (r.body.drop slashes) r
    else match r.body with
      | '/' :: '/' :: rest => withAuthority scheme rest r
      | '/' :: rest => .ok (assemble scheme none (pathFrom false [] rest) r)
      | body => .ok (assemble scheme none
          (.opaqueText (Text.Percent.encode (fun _ => false) body)) r)
  | none =>
    match base with
    | none => .error .noBase
    | some base =>
      if r.body.isEmpty ∧ r.query.isNone ∧ r.fragment.isSome then
        .ok { base with fragment := encodeFragment r.fragment }
      else match base.path with
        | .opaqueText _ => .error .opaqueBase
        | .segments place =>
          if base.scheme = file then fileUrl (some base) r else relative base place r

def parse (text : String) : Except UrlFault Url := resolve none (.ofChars text.toList)

/-- Reads an address that may be given relative to this one. -/
def join (base : Url) (text : String) : Except UrlFault Url :=
  resolve (some base) (.ofChars text.toList)

end Url

end RegistryCache
