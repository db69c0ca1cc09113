import RegistryCache.Url.Domain
import RegistryCache.Text.Percent
import RegistryCache.Text.Decimal

/-! # Hosts

An address names a host by a domain name, by an IPv4 address or, in brackets, by an IPv6 address.  A
name whose last label is a number is an IPv4 address or nothing: numbers may be decimal, octal or
hexadecimal, and the last one fills all bytes that are left.
-/

namespace RegistryCache

/-- What is wrong with a text that should be an address. -/
inductive UrlFault where
  | emptyHost
  | badDomain
  | badHostCharacter
  | badPort
  | badIpv4
  | badIpv6
  | noBase
  | opaqueBase
  deriving DecidableEq, Repr

/-- The fault as a person reads it. -/
def UrlFault.text : UrlFault → String
  | .emptyHost => "empty host"
  | .badDomain => "invalid international domain name"
  | .badHostCharacter => "invalid domain character"
  | .badPort => "invalid port number"
  | .badIpv4 => "invalid IPv4 address"
  | .badIpv6 => "invalid IPv6 address"
  | .noBase => "relative URL without a base"
  | .opaqueBase => "relative URL with a cannot-be-a-base base"

/-- A host; a domain name may be empty where the scheme allows it. -/
inductive Host where
  | domain (name : List Char)
  | ipv4 (number : Nat)
  | ipv6 (pieces : List Nat)
  deriving DecidableEq, Repr

namespace Host

/-! ## IPv4 -/

/-- The value of digits in a base. -/
def valueIn (base : Nat) (digitValue? : Char → Option Nat) : Nat → List Char → Option Nat
  | value, [] => some value
  | value, c :: rest => do valueIn base digitValue? (value * base + (← digitValue? c)) rest

def octalValue? (c : Char) : Option Nat := (Text.digitValue? c).filter (· < 8)

/-- Reads a number: hexadecimal behind `0x`, octal behind a zero, else decimal. -/
def ipv4Number? : List Char → Option Nat
  | [] => none
  | '0' :: 'x' :: rest => valueIn 16 Text.hexValue? 0 rest
  | '0' :: 'X' :: rest => valueIn 16 Text.hexValue? 0 rest
  | '0' :: rest => valueIn 8 octalValue? 0 rest
  | cs => valueIn 10 Text.digitValue? 0 cs

/-- The labels of a name; a dot at its end closes the last one. -/
def labels (name : List Char) : List (List Char) :=
  let all := Text.pieces '.' name
  if all.getLast? = some [] then all.dropLast else all

/-- Whether a name ends in a number. -/
def endsInNumber (name : List Char) : Bool :=
  match (labels name).getLast? with
  | some last => (!last.isEmpty && last.all Char.isDigit) || (ipv4Number? last).isSome
  | none => false

def ipv4? (name : List Char) : Option Nat := do
  let numbers ← (labels name).mapM ipv4Number?
  let last ← numbers.getLast?
  let front := numbers.dropLast
  let bits := 8 * (4 - front.length)
  if numbers.length ≤ 4 ∧ front.all (· ≤ 255) ∧ last < 1 <<< bits then
    return front.foldl (fun sum n => sum * 256 + n) 0 <<< bits + last
  else none

/-! ## IPv6 -/

/-- Reads a group of one to four hexadecimal digits. -/
def group? (cs : List Char) : Option Nat :=
  if cs.isEmpty ∨ 4 < cs.length then none else valueIn 16 Text.hexValue? 0 cs

/-- Reads a byte in decimal, without zeros in front. -/
def byte? (cs : List Char) : Option Nat :=
  match cs with
  | '0' :: _ :: _ => none
  | _ => (Text.digits? cs).filter (· ≤ 255)

/-- Reads four bytes with dots between them as two groups. -/
def dotted? (cs : List Char) : Option (List Nat) := do
  match ← (Text.pieces '.' cs).mapM byte? with
  | [a, b, c, d] => return [a * 256 + b, c * 256 + d]
  | _ => none

/-- Reads groups with colons between them, the last of which may be four bytes with dots. -/
def groups? : List (List Char) → Option (List Nat)
  | [] => none
  | [last] => if last.contains '.' then dotted? last else (group? last).map ([·])
  | cs :: rest => do return (← group? cs) :: (← groups? rest)

/-- What stands before and after the first two colons in a row. -/
def cutDouble? : List Char → Option (List Char × List Char)
  | [] => none
  | ':' :: ':' :: rest => some ([], rest)
  | c :: rest => (cutDouble? rest).map fun (before, after) => (c :: before, after)

/-- Reads an IPv6 address: eight groups, of which two colons leave out at least one. -/
def ipv6? (cs : List Char) : Option (List Nat) :=
  match cutDouble? cs with
  | none => (groups? (Text.pieces ':' cs)).filter (·.length = 8)
  | some (before, after) => do
    let front ← if before.isEmpty then some [] else (Text.pieces ':' before).mapM group?
    let back ← if after.isEmpty then some [] else groups? (Text.pieces ':' after)
    if front.length + back.length ≤ 7 then
      return front ++ List.replicate (8 - front.length - back.length) 0 ++ back
    else none

def groupText (n : Nat) : List Char := Nat.toDigits 16 n

def groupsText (pieces : List Nat) : List Char := [':'].intercalate (pieces.map groupText)

def zeros (pieces : List Nat) : Nat := (pieces.takeWhile (· = 0)).length

/-- Where the longest run of zeros begins, and how long it is; the first one if there are several. -/
def longestZeros : Nat → List Nat → Nat × Nat
  | start, [] => (start, 0)
  | start, n :: rest =>
    let later := longestZeros (start + 1) rest
    if later.2 ≤ zeros (n :: rest) then (start, zeros (n :: rest)) else later

/-- An IPv6 address, where two colons stand for the longest run of zeros. -/
def ipv6Text (pieces : List Nat) : List Char :=
  let (start, length) := longestZeros 0 pieces
  if length < 2 then groupsText pieces
  else groupsText (pieces.take start) ++ ':' :: ':' :: groupsText (pieces.drop (start + length))

/-! ## Hosts -/

/-- The host as it stands in an address. -/
def text : Host → List Char
  | .domain name => name
  | .ipv4 n => ['.'].intercalate
      ([n / 0x1000000, n / 0x10000 % 256, n / 0x100 % 256, n % 256].map (Nat.toDigits 10))
  | .ipv6 pieces => '[' :: ipv6Text pieces ++ [']']

/-- Reads what stands in brackets. -/
def bracketed (rest : List Char) : Except UrlFault Host :=
  if rest.getLast? = some ']' then
    match ipv6? rest.dropLast with
    | some pieces => .ok (.ipv6 pieces)
    | none => .error .badIpv6
  else .error .badIpv6

/-- Reads the host of a scheme that is known: a name or a number. -/
def parse : List Char → Except UrlFault Host
  | '[' :: rest => bracketed rest
  | cs =>
    match (Text.Utf8.allOf? (Text.Utf8.decode (Text.Percent.decode cs))).bind Domain.toAscii? with
    | none => .error .badDomain
    | some [] => .error .emptyHost
    | some name =>
      if endsInNumber name then
        match ipv4? name with
        | some n => .ok (.ipv4 n)
        | none => .error .badIpv4
      else .ok (.domain name)

/-- Characters that may not stand in the host of a scheme that is not known. -/
def opaqueForbidden (c : Char) : Bool :=
  ['\x00', '\t', '\n', '\r', ' ', '#', '/', ':', '<', '>', '?', '@', '[', '\\', ']', '^', '|'].contains c

/-- Reads the host of a scheme that is not known: any text, encoded. -/
def parseOpaque : List Char → Except UrlFault Host
  | '[' :: rest => bracketed rest
  | cs =>
    if cs.any opaqueForbidden then .error .badHostCharacter
    else .ok (.domain (Text.Percent.encode (fun _ => false) cs))

end Host

end RegistryCache
