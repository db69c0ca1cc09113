import RegistryCache.Text.Punycode
import RegistryCache.Text.Utf8

/-! # Domain names

A domain name is compared and sent in ASCII and in lower case.  Other alphabets are lowered, wide forms
become plain ones, invisible marks vanish, and every label with something else than ASCII in it is
written in Punycode behind `xn--`.  The lower-case forms known here are those of the Latin, Greek,
Cyrillic and Armenian alphabets; any other character stands for itself.
-/

namespace RegistryCache.Domain

/-! ## Characters -/

/-- Marks that may not stand in a domain name. -/
def forbidden (c : Char) : Bool :=
  c.toNat ≤ 0x20 || c.toNat = 0x7F
    || ['%', '#', '/', ':', '<', '>', '?', '@', '[', '\\', ']', '^', '|'].contains c

/-- Characters beyond ASCII that may not stand in a domain name: controls, blanks, private and
    unassigned ones. -/
def foreignForbidden (n : Nat) : Bool :=
  (0x80 ≤ n && n ≤ 0xA0) || n == 0x1680 || (0x2000 ≤ n && n ≤ 0x200A) || n == 0x200C || n == 0x200D
    || n == 0x200E || n == 0x200F || (0x2028 ≤ n && n ≤ 0x202F) || n == 0x205F
    || (0x2065 ≤ n && n ≤ 0x206F) || n == 0x3000 || (0xE000 ≤ n && n ≤ 0xF8FF)
    || (0xFDD0 ≤ n && n ≤ 0xFDEF) || (0xFFF0 ≤ n && n ≤ 0xFFFF)
    || 0xE0000 ≤ n || n % 0x10000 == 0xFFFE || n % 0x10000 == 0xFFFF

/-- Invisible marks that vanish from a domain name. -/
def vanishes (n : Nat) : Bool :=
  n == 0xAD || n == 0x34F || n == 0x200B || n == 0x2060 || n == 0x2064 || n == 0xFEFF
    || (0xFE00 ≤ n && n ≤ 0xFE0F) || (0x180B ≤ n && n ≤ 0x180D)

/-- Alphabets whose upper-case letters lie a fixed distance before the lower-case ones: the first and
    the last of the former, and the distance. -/
def shifted : List (Nat × Nat × Nat) :=
  [(0xC0, 0xD6, 0x20), (0xD8, 0xDE, 0x20), (0x386, 0x386, 0x26), (0x388, 0x38A, 0x25),
   (0x38C, 0x38C, 0x40), (0x38E, 0x38F, 0x3F), (0x391, 0x3A1, 0x20), (0x3A3, 0x3AB, 0x20),
   (0x400, 0x40F, 0x50), (0x410, 0x42F, 0x20), (0x4C0, 0x4C0, 0xF), (0x531, 0x556, 0x30)]

/-- Alphabets in which upper-case letters with an even number come right before the lower-case ones. -/
def evenUpper : List (Nat × Nat) :=
  [(0x100, 0x12F), (0x134, 0x137), (0x14A, 0x177), (0x460, 0x481), (0x48A, 0x4BF), (0x4D0, 0x52F),
   (0x1E00, 0x1E95), (0x1EA0, 0x1EFF)]

/-- Alphabets in which upper-case letters with an odd number come right before the lower-case ones. -/
def oddUpper : List (Nat × Nat) := [(0x139, 0x13E), (0x141, 0x148), (0x179, 0x17E), (0x4C1, 0x4CE)]

/-- The number of a letter's lower-case form. -/
def lowered (n : Nat) : Nat :=
  match shifted.find? fun (first, last, _) => first ≤ n && n ≤ last with
  | some (_, _, distance) => n + distance
  | none =>
    if evenUpper.any fun (first, last) => first ≤ n && n ≤ last then n + (n + 1) % 2
    else if oddUpper.any fun (first, last) => first ≤ n && n ≤ last then n + n % 2
    else n

/-- What a character of ASCII becomes, unless it may not stand in a domain name. -/
def mapAscii? (c : Char) : Option (List Char) :=
  if forbidden c then none else some [Text.lowerChar c]

/-- What a character becomes, unless it may not stand in a domain name. -/
def map? (c : Char) : Option (List Char) :=
  let n := c.toNat
  if n < 0x80 then mapAscii? c
  else if vanishes n then some []
  else if 0xFF01 ≤ n ∧ n ≤ 0xFF5E then mapAscii? (Char.ofNat (n - 0xFEE0))
  else if n = 0x3002 ∨ n = 0xFF61 then some ['.']
  else if foreignForbidden n then none
  else if n = 0x130 then some ['i', '\u0307']
  else if n = 0x132 ∨ n = 0x133 then some ['i', 'j']
  else if n = 0x178 then some ['\u00FF']
  else if n = 0x17F then some ['s']
  else if n = 0x1E9E then some ['s', 's']
  else some [Char.ofNat (lowered n)]

/-- What a whole name becomes, unless one of its characters may not stand in it. -/
def mapAll? : List Char → Option (List Char)
  | [] => some []
  | c :: rest => do return (← map? c) ++ (← mapAll? rest)

/-! ## Labels -/

def mark : List Char := ['x', 'n', '-', '-']

/-- Whether a label in Punycode stands for what would be written like it. -/
def isFaithful (code : List Char) : Bool :=
  match Text.Punycode.decode? code with
  | some label => !label.all (·.toNat < 0x80) && mapAll? label == some label
      && Text.Punycode.encode label == code
  | none => false

/-- A label in ASCII. -/
def label? (cs : List Char) : Option (List Char) :=
  if cs.all (·.toNat < 0x80) then
    match Text.after? mark cs with
    | some code => if isFaithful code then some cs else none
    | none => some cs
  else some (mark ++ Text.Punycode.encode cs)

/-- A domain name in ASCII, unless it is none. -/
def toAscii? (cs : List Char) : Option (List Char) := do
  let labels ← (Text.pieces '.' (← mapAll? cs)).mapM label?
  return ['.'].intercalate labels

end RegistryCache.Domain
