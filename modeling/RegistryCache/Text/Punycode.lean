import RegistryCache.Text.Basic

/-! # Punycode

A way to write any text with letters, digits and hyphens.  The ASCII characters come first; the others
follow as the distances between their insertions, in ascending order, as numbers of base 36 whose
digits have thresholds that adapt to the distances seen so far.
-/

namespace RegistryCache.Text.Punycode

/-! ## Digits and thresholds -/

/-- The digit of a value below 36: letters first. -/
def digit (n : Nat) : Char :=
  if n < 26 then Char.ofNat ('a'.toNat + n) else Char.ofNat ('0'.toNat + (n - 26))

/-- The value of a digit. -/
def digitValue? (c : Char) : Option Nat :=
  if 'a' ≤ c ∧ c ≤ 'z' then some (c.toNat - 'a'.toNat)
  else if 'A' ≤ c ∧ c ≤ 'Z' then some (c.toNat - 'A'.toNat)
  else if '0' ≤ c ∧ c ≤ '9' then some (c.toNat - '0'.toNat + 26)
  else none

/-- From which value on a digit at weight `k` says that another one follows. -/
def threshold (k bias : Nat) : Nat := max 1 (min 26 (k - bias))

theorem one_le_threshold (k bias : Nat) : 1 ≤ threshold k bias := by
  unfold threshold
  omega

/-- Divides a distance until it is small, counting 36 for each time. -/
def settle (delta k : Nat) : Nat × Nat :=
  if 455 < delta then settle (delta / 35) (k + 36) else (delta, k)
termination_by delta

/-- The thresholds' bias after a distance, as the `points`-th character is placed. -/
def adapt (delta points : Nat) (first : Bool) : Nat :=
  let halved := if first then delta / 700 else delta / 2
  let (rest, k) := settle (halved + halved / points) 0
  k + 36 * rest / (rest + 38)

/-! ## Writing -/

/-- A distance as digits, from the one of weight `k` on. -/
def digits (bias k q : Nat) : List Char :=
  let t := threshold k bias
  if q < t then [digit q]
  else digit (t + (q - t) % (36 - t)) :: digits bias (k + 36) ((q - t) / (36 - t))
termination_by q
decreasing_by
  have positive := one_le_threshold k bias
  exact Nat.lt_of_le_of_lt (Nat.div_le_self _ _) (by omega)

/-- Where writing stands. -/
structure Writer where
  output : List Char
  delta : Nat
  bias : Nat
  placed : Nat

/-- Passes a character of the text while those of value `n` are placed. -/
def Writer.pass (basic n : Nat) (w : Writer) (c : Char) : Writer :=
  if c.toNat < n then { w with delta := w.delta + 1 }
  else if c.toNat = n then
    { output := w.output ++ digits w.bias 36 w.delta
      delta := 0
      bias := adapt w.delta (w.placed + 1) (w.placed == basic)
      placed := w.placed + 1 }
  else w

/-- Places the characters of the values listed in ascending order, none of them below `n`. -/
def Writer.place (cs : List Char) (basic : Nat) : Nat → List Nat → Writer → Writer
  | _, [], w => w
  | n, m :: rest, w =>
    let w := cs.foldl (pass basic m) { w with delta := w.delta + (m - n) * (w.placed + 1) }
    place cs basic (m + 1) rest { w with delta := w.delta + 1 }

/-- The values of the characters that are not ASCII, each once and in ascending order. -/
def foreign (cs : List Char) : List Nat :=
  ((cs.map Char.toNat).filter (0x80 ≤ ·)).mergeSort.eraseDups

/-- A text in Punycode. -/
def encode (cs : List Char) : List Char :=
  let basic := cs.filter (·.toNat < 0x80)
  let start := if basic.isEmpty then [] else basic ++ ['-']
  (Writer.place cs basic.length 0x80 (foreign cs) ⟨start, 0, 72, basic.length⟩).output

/-! ## Reading -/

/-- Reads a distance: its value and what follows. -/
def distance? (bias : Nat) : Nat → Nat → Nat → List Char → Option (Nat × List Char)
  | _, _, _, [] => none
  | k, weight, value, c :: rest => do
    let d ← digitValue? c
    let value := value + d * weight
    let t := threshold k bias
    if d < t then return (value, rest) else distance? bias (k + 36) (weight * (36 - t)) value rest

/-- Inserts the characters that distances name, with at most so many of them. -/
def insertAll? (basic : Nat) : Nat → Nat → Nat → Nat → List Char → List Char → Option (List Char)
  | _, _, _, _, output, [] => some output
  | 0, _, _, _, _, _ :: _ => none
  | bound + 1, n, i, bias, output, cs => do
    let (d, rest) ← distance? bias 36 1 0 cs
    let points := output.length + 1
    let i := i + d
    let n := n + i / points
    let at_ := i % points
    if Nat.isValidChar n then
      insertAll? basic bound n (at_ + 1) (adapt d points (output.length == basic))
        (output.take at_ ++ Char.ofNat n :: output.drop at_) rest
    else none

/-- The text that stands in Punycode. -/
def decode? (cs : List Char) : Option (List Char) :=
  let tail := (cs.reverse.takeWhile (· ≠ '-')).reverse
  let basic := cs.take (cs.length - tail.length - 1)
  if basic.all (·.toNat < 0x80) then insertAll? basic.length cs.length 0x80 0 72 basic tail
  else none

end RegistryCache.Text.Punycode
