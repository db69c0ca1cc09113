import RegistryCache.Json.Reader

/-! # Decoding JSON values

A record is written as an object with its fields in any order, or as an array of them in their order.
In an object unknown fields are passed over, a known one may stand only once, and a name that stands
for no text is an error.
-/

namespace RegistryCache.Json

/-! ## Leaves -/

/-- A string that stands for a text. -/
def asString? : Json → Option String
  | .string content => content
  | _ => none

/-- A truth value. -/
def asBool? : Json → Option Bool
  | .bool b => some b
  | _ => none

/-- A whole number of 64 bits. -/
def asWord? : Json → Option UInt64
  | .number digits => (Text.digits? digits.toList).bind Text.ofNat64?
  | _ => none

/-- A list of which every element decodes. -/
def asList? (decode : Json → Option α) : Json → Option (List α)
  | .array elements => elements.mapM decode
  | _ => none

/-- `null`, or a value that decodes. -/
def asOption? (decode : Json → Option α) : Json → Option (Option α)
  | .null => some none
  | v => (decode v).map some

/-! ## Records -/

/-- The fields of an object, unless one of the names stands for no text. -/
def namedFields? : List (Option String × Json) → Option (List (String × Json))
  | [] => some []
  | (name, v) :: rest => do
    let name ← name
    let rest ← namedFields? rest
    return (name, v) :: rest

/-- A record as its parts: the value of each known field where there is one. -/
def parts? (known : List String) : Json → Option (List (Option Json))
  | .array elements =>
    if elements.length ≤ known.length then
      some (elements.map some ++ List.replicate (known.length - elements.length) none)
    else none
  | .object fields => do
    let fields ← namedFields? fields
    known.mapM fun name =>
      match fields.filter (·.1 = name) with
      | [] => some none
      | [(_, v)] => some (some v)
      | _ => none
  | _ => none

/-- Whether a value is written as an array. -/
def isArray : Json → Bool
  | .array _ => true
  | _ => false

/-- The parts of a record, of which an array leaves none out. -/
def fullParts? (known : List String) (v : Json) : Option (List (Option Json)) := do
  let parts ← parts? known v
  if isArray v && parts.any Option.isNone then none else some parts

def required? (decode : Json → Option α) (part : Option Json) : Option α := part.bind decode

/-- The value of a field that may be `null`, or missing. -/
def optional? (decode : Json → Option α) (part : Option Json) : Option (Option α) :=
  match part with
  | some v => asOption? decode v
  | none => some none

end RegistryCache.Json
