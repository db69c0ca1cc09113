import RegistryCache.Http.Status
import RegistryCache.Json.Decoder
import RegistryCache.Text.Utf8
import RegistryCache.Url.Basic

/-! # Requests and responses

What is sent to a registry or a token service, and what comes back.  Header values and bodies are
bytes: a value that is not plain ASCII is as good as absent, and a body that breaks off cannot be
read.
-/

namespace RegistryCache

/-- What a request does. -/
inductive Method where
  | get | head | delete
  deriving DecidableEq, Repr

/-- The name of a method. -/
def Method.text : Method → String
  | .get => "GET"
  | .head => "HEAD"
  | .delete => "DELETE"

/-- A request as it is sent. -/
structure Request where
  method : Method
  url : Url
  authorization : Option String
  accept : String
  deriving DecidableEq, Repr

namespace Request

/-- How the program introduces itself in every request. -/
def userAgent : String := "registry-catalog-cache"

def anything : String := "*/*"

end Request

/-- A response. -/
structure Response where
  status : Status
  headers : List (String × List UInt8)
  body : List UInt8
  complete : Bool
  deriving DecidableEq, Repr

namespace Response

/-! ## Headers -/

def isPadding (b : UInt8) : Bool := b == 0x20 || b == 0x09

/-- A header value without blanks at its ends. -/
def unpadded (value : List UInt8) : List UInt8 :=
  ((value.dropWhile isPadding).reverse.dropWhile isPadding).reverse

/-- The text of a header value, if it is plain. -/
def plainText? (value : List UInt8) : Option String :=
  if value.all fun b => b == 0x09 || (0x20 ≤ b && b < 0x7F) then
    some (String.ofList (value.map fun b => Char.ofNat b.toNat))
  else none

/-- The text of the first header of a name, whatever the case of its letters. -/
def header? (r : Response) (name : String) : Option String :=
  match r.headers.find? fun (n, _) => Text.sameLetters n.toList name.toList with
  | some (_, value) => plainText? (unpadded value)
  | none => none

/-! ## Bodies -/

/-- The text of the body, unless it breaks off. -/
def text? (r : Response) : Option String :=
  if r.complete then some (Text.Utf8.tolerant r.body) else none

def errorText (r : Response) : String := r.text?.getD "Failed to read error response"

/-- What stands for bytes that are no text: two halves of pairs, which make no string. -/
def hole : List Char := ['\\', 'u', 'd', 'c', '0', '0', '\\', 'u', 'd', 'c', '0', '0']

/-- The characters of a JSON text, where bytes that are no text may stand in strings that nobody
    reads; the flag says that a backslash came before. -/
def jsonChars? : Bool → List (Option Char) → Option (List Char)
  | _, [] => some []
  | escaped, some c :: rest => (jsonChars? (c == '\\' && !escaped) rest).map (c :: ·)
  | true, none :: _ => none
  | false, none :: rest => (jsonChars? false rest).map (hole ++ ·)

/-- The body as JSON, if it is. -/
def json? (r : Response) : Option Json :=
  if r.complete then (jsonChars? false (Text.Utf8.decode r.body)).bind Json.parseChars? else none

end Response

/-! ## What responses hold -/

/-- The message of a body that cannot be read as JSON. -/
def undecodable : String := "error decoding response body"

/-- A list of texts in a record, which may be missing or `null`. -/
def Json.listing? (name : String) (v : Json) : Option (List String) := do
  match ← Json.parts? [name] v with
  | [part] => return (← Json.optional? (Json.asList? Json.asString?) part).getD []
  | _ => none

/-- What a token service answers. -/
structure TokenAnswer where
  token : Option String
  accessToken : Option String
  deriving DecidableEq, Repr

namespace TokenAnswer

def ofJson? (v : Json) : Option TokenAnswer := do
  match ← Json.fullParts? ["token", "access_token"] v with
  | [token, accessToken] =>
    return ⟨← Json.optional? Json.asString? token, ← Json.optional? Json.asString? accessToken⟩
  | _ => none

/-- The token, under the one name or else under the other. -/
def value? (a : TokenAnswer) : Option String := a.token.or a.accessToken

end TokenAnswer

end RegistryCache
