import RegistryCache.Text.Basic

/-! # Unsigned decimal numbers

Counts, intervals and limits are written in decimal and hold 64 bits.  `digits?` reads digits alone,
`word?` reads what a person may type: one plus sign is allowed, and a number beyond 64 bits is no
number at all.
-/

namespace RegistryCache.Text

/-- The value of a decimal digit. -/
def digitValue? (c : Char) : Option Nat :=
  if '0' ≤ c ∧ c ≤ '9' then some (c.toNat - '0'.toNat) else none

/-- Reads further digits behind a value already read. -/
def moreDigits? : Nat → List Char → Option Nat
  | value, [] => some value
  | value, c :: rest => (digitValue? c).bind fun d => moreDigits? (value * 10 + d) rest

/-- Reads a non-empty run of digits and nothing else. -/
def digits? : List Char → Option Nat
  | [] => none
  | cs => moreDigits? 0 cs

/-- A natural number as 64 bits, if they hold it. -/
def ofNat64? (n : Nat) : Option UInt64 :=
  if n < UInt64.size then some (UInt64.ofNat n) else none

/-- Reads a 64-bit number: digits, with at most one plus sign before them. -/
def word? (text : String) : Option UInt64 :=
  let digits := match text.toList with
    | '+' :: rest => rest
    | cs => cs
  (digits? digits).bind ofNat64?

end RegistryCache.Text
