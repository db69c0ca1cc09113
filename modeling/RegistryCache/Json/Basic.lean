import RegistryCache.Text.Decimal

/-! # JSON values and their text

A value keeps its numbers as they are written and the fields of an object in order, repeated ones
included, so that a reader decides what they mean.  A string may name half of a surrogate pair and
then stands for no text; its content is absent.  `render` writes a value without blanks, `pretty`
with one element to a line.
-/

namespace RegistryCache

/-- A JSON value. -/
inductive Json where
  | null
  | bool (b : Bool)
  | number (digits : String)
  /-- A string, and its content if it stands for a text. -/
  | string (content : Option String)
  | array (elements : List Json)
  | object (fields : List (Option String × Json))

namespace Json

def ofString (s : String) : Json := .string (some s)

def ofNat (n : Nat) : Json := .number (toString n)

/-- A value that may be absent, which `null` says. -/
def ofOption (f : α → Json) : Option α → Json
  | some a => f a
  | none => .null

/-- An object with named fields, in order. -/
def record (fields : List (String × Json)) : Json :=
  .object (fields.map fun (name, value) => (some name, value))

/-! ## Writing -/

/-- A character inside a string. -/
def escape (c : Char) : List Char :=
  if c = '"' then ['\\', '"']
  else if c = '\\' then ['\\', '\\']
  else if c = '\n' then ['\\', 'n']
  else if c = '\r' then ['\\', 'r']
  else if c = '\t' then ['\\', 't']
  else if c.toNat = 0x08 then ['\\', 'b']
  else if c.toNat = 0x0C then ['\\', 'f']
  else if c.toNat < 0x20 then
    ['\\', 'u', '0', '0', Text.hexDigit (c.toNat / 16), Text.hexDigit (c.toNat % 16)]
  else [c]

/-- A string with its quotes.  One that stands for no text is written as half of a pair. -/
def quote : Option String → List Char
  | some s => '"' :: s.toList.flatMap escape ++ ['"']
  | none => '"' :: ['\\', 'u', 'd', 'c', '0', '0'] ++ ['"']

mutual

/-- The text of a value, without blanks. -/
def renderChars : Json → List Char
  | .null => ['n', 'u', 'l', 'l']
  | .bool true => ['t', 'r', 'u', 'e']
  | .bool false => ['f', 'a', 'l', 's', 'e']
  | .number digits => digits.toList
  | .string content => quote content
  | .array elements => '[' :: renderElements elements
  | .object fields => '\x7b' :: renderFields fields

/-- The elements of an array and its closing bracket. -/
def renderElements : List Json → List Char
  | [] => [']']
  | [v] => renderChars v ++ [']']
  | v :: w :: rest => renderChars v ++ ',' :: renderElements (w :: rest)

/-- The fields of an object and its closing bracket. -/
def renderFields : List (Option String × Json) → List Char
  | [] => ['\x7d']
  | [(name, v)] => quote name ++ ':' :: renderChars v ++ ['\x7d']
  | (name, v) :: w :: rest => quote name ++ ':' :: renderChars v ++ ',' :: renderFields (w :: rest)

end

/-- The text of a value, without blanks. -/
def render (v : Json) : String := String.ofList v.renderChars

def newline (level : Nat) : List Char := '\n' :: List.replicate (2 * level) ' '

mutual

/-- The text of a value at a level, one element to a line. -/
def prettyChars (level : Nat) : Json → List Char
  | .array [] => ['[', ']']
  | .array (v :: rest) =>
    '[' :: newline (level + 1) ++ prettyChars (level + 1) v ++ prettyElements level rest
  | .object [] => ['\x7b', '\x7d']
  | .object ((name, v) :: rest) =>
    '\x7b' :: newline (level + 1) ++ quote name ++ ':' :: ' ' :: prettyChars (level + 1) v
      ++ prettyFields level rest
  | .null => ['n', 'u', 'l', 'l']
  | .bool true => ['t', 'r', 'u', 'e']
  | .bool false => ['f', 'a', 'l', 's', 'e']
  | .number digits => digits.toList
  | .string content => quote content

/-- The elements of an array after the first, and its closing bracket. -/
def prettyElements (level : Nat) : List Json → List Char
  | [] => newline level ++ [']']
  | v :: rest => ',' :: newline (level + 1) ++ prettyChars (level + 1) v ++ prettyElements level rest

/-- The fields of an object after the first, and its closing bracket. -/
def prettyFields (level : Nat) : List (Option String × Json) → List Char
  | [] => newline level ++ ['\x7d']
  | (name, v) :: rest =>
    ',' :: newline (level + 1) ++ quote name ++ ':' :: ' ' :: prettyChars (level + 1) v
      ++ prettyFields level rest

end

/-- The text of a value, one element to a line and two blanks for each level. -/
def pretty (v : Json) : String := String.ofList (v.prettyChars 0)

end Json

end RegistryCache
