import RegistryCache.Text.Utf8

/-! # Base 64

Three bytes are four characters of an alphabet of 64; one or two bytes at the end are filled up with
equals signs.
-/

namespace RegistryCache.Text.Base64

/-- The character for a value below 64. -/
def symbol (n : Nat) : Char :=
  if n < 26 then Char.ofNat ('A'.toNat + n)
  else if n < 52 then Char.ofNat ('a'.toNat + (n - 26))
  else if n < 62 then Char.ofNat ('0'.toNat + (n - 52))
  else if n = 62 then '+'
  else '/'

/-- Bytes in base 64. -/
def encode : List UInt8 → List Char
  | [] => []
  | [a] =>
    let n := a.toNat * 0x10000
    [symbol (n / 0x40000), symbol (n / 0x1000 % 0x40), '=', '=']
  | [a, b] =>
    let n := a.toNat * 0x10000 + b.toNat * 0x100
    [symbol (n / 0x40000), symbol (n / 0x1000 % 0x40), symbol (n / 0x40 % 0x40), '=']
  | a :: b :: c :: rest =>
    let n := a.toNat * 0x10000 + b.toNat * 0x100 + c.toNat
    symbol (n / 0x40000) :: symbol (n / 0x1000 % 0x40) :: symbol (n / 0x40 % 0x40)
      :: symbol (n % 0x40) :: encode rest

end RegistryCache.Text.Base64
