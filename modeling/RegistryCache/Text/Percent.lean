import RegistryCache.Text.Basic
import RegistryCache.Text.Utf8

/-! # Percent encoding

A byte that may not stand where it is wanted is written as a percent sign and two hexadecimal digits.
Which characters these are differs from place to place, so `encode` takes them as a predicate; what
is not ASCII is always encoded.
-/

namespace RegistryCache.Text.Percent

/-- A byte as a percent sign and two digits. -/
def encodeByte (b : UInt8) : List Char :=
  ['%', hexDigitUpper (b.toNat / 16), hexDigitUpper (b.toNat % 16)]

/-- A character as it may stand, or its bytes encoded. -/
def encodeChar (escaped : Char → Bool) (c : Char) : List Char :=
  if 0x7F ≤ c.toNat || c.toNat < 0x20 || escaped c then (String.utf8EncodeChar c).flatMap encodeByte
  else [c]

/-- A text in which controls, what is not ASCII and the characters of a class are encoded. -/
def encode (escaped : Char → Bool) (cs : List Char) : List Char := cs.flatMap (encodeChar escaped)

/-- The bytes of a text in which percent signs before two hexadecimal digits are resolved. -/
def decode : List Char → List UInt8
  | '%' :: a :: b :: rest =>
    match hexValue? a, hexValue? b with
    | some x, some y => UInt8.ofNat (x * 16 + y) :: decode rest
    | _, _ => 0x25 :: decode (a :: b :: rest)
  | c :: rest => String.utf8EncodeChar c ++ decode rest
  | [] => []
termination_by cs => cs.length

/-- A character of a form value: letters, digits and four marks stand for themselves, a blank is a
    plus sign. -/
def formChar (c : Char) : List Char :=
  if c.isAlphanum || c == '*' || c == '-' || c == '.' || c == '_' then [c]
  else if c = ' ' then ['+']
  else (String.utf8EncodeChar c).flatMap encodeByte

def form (cs : List Char) : List Char := cs.flatMap formChar

end RegistryCache.Text.Percent
