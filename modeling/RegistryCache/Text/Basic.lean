/-! # Text as lists of characters

The formats that the cache reads (challenges, links, numbers, addresses) are described over
`List Char`, where cutting, trimming and comparing are structural.  This module holds the cuts that
they share: the first separator (`cut?`), blanks at both ends (`trim`), repeated marks at both ends
(`trimMark`), and letter case within ASCII (`lower`).
-/

namespace RegistryCache.Text

/-! ## Character classes -/

/-- Blank characters: the ones that Unicode gives the property `White_Space`. -/
def isBlank (c : Char) : Bool :=
  let n := c.toNat
  (0x09 ≤ n && n ≤ 0x0D) || n == 0x20 || n == 0x85 || n == 0xA0 || n == 0x1680
    || (0x2000 ≤ n && n ≤ 0x200A) || n == 0x2028 || n == 0x2029 || n == 0x202F
    || n == 0x205F || n == 0x3000

/-- The lower-case form of an ASCII letter; any other character stands for itself. -/
def lowerChar (c : Char) : Char :=
  if 'A' ≤ c ∧ c ≤ 'Z' then Char.ofNat (c.toNat + 32) else c

/-- A hexadecimal digit's value. -/
def hexValue? (c : Char) : Option Nat :=
  if '0' ≤ c ∧ c ≤ '9' then some (c.toNat - '0'.toNat)
  else if 'a' ≤ c ∧ c ≤ 'f' then some (c.toNat - 'a'.toNat + 10)
  else if 'A' ≤ c ∧ c ≤ 'F' then some (c.toNat - 'A'.toNat + 10)
  else none

/-- The digit of a value below sixteen, letters in lower case. -/
def hexDigit (n : Nat) : Char :=
  if n < 10 then Char.ofNat ('0'.toNat + n) else Char.ofNat ('a'.toNat + (n - 10))

/-- The digit of a value below sixteen, letters in upper case. -/
def hexDigitUpper (n : Nat) : Char :=
  if n < 10 then Char.ofNat ('0'.toNat + n) else Char.ofNat ('A'.toNat + (n - 10))

/-! ## Letter case -/

/-- ASCII letters in lower case, all else as it stands. -/
def lower (cs : List Char) : List Char := cs.map lowerChar

def sameLetters (xs ys : List Char) : Bool := lower xs == lower ys

/-! ## Trimming -/

/-- The text without the characters of a class at its end. -/
def trimEndBy (p : Char → Bool) (cs : List Char) : List Char :=
  (cs.reverse.dropWhile p).reverse

/-- The text without the characters of a class at both ends. -/
def trimBy (p : Char → Bool) (cs : List Char) : List Char :=
  trimEndBy p (cs.dropWhile p)

def trim (cs : List Char) : List Char := trimBy isBlank cs

def trimmed (text : String) : String := String.ofList (trim text.toList)

def trimMark (mark : Char) (cs : List Char) : List Char := trimBy (· == mark) cs

@[simp] theorem trimEndBy_nil (p : Char → Bool) : trimEndBy p [] = [] := rfl

@[simp] theorem trimBy_nil (p : Char → Bool) : trimBy p [] = [] := rfl

/-! ## Cutting -/

/-- What stands before and after the first separator, or nothing when there is none. -/
def cut? (separator : Char) : List Char → Option (List Char × List Char)
  | [] => none
  | c :: rest =>
    if c = separator then some ([], rest)
    else (cut? separator rest).map fun (before, after) => (c :: before, after)

@[simp] theorem cut?_nil (separator : Char) : cut? separator [] = none := rfl

/-- Cutting loses nothing but the separator. -/
theorem eq_of_cut? {separator : Char} {cs before after : List Char}
    (cut : cut? separator cs = some (before, after)) : cs = before ++ separator :: after := by
  induction cs generalizing before with
  | nil => cases cut
  | cons c rest inductionHypothesis =>
    rw [cut?] at cut
    split at cut
    · rename_i found
      cases cut
      rw [found, List.nil_append]
    · obtain ⟨⟨front, behind⟩, further, same⟩ := Option.map_eq_some_iff.mp cut
      cases same
      rw [inductionHypothesis further, List.cons_append]

/-- A text begins with another: what follows it. -/
def after? : List Char → List Char → Option (List Char)
  | [], cs => some cs
  | _ :: _, [] => none
  | x :: xs, c :: cs => if x = c then after? xs cs else none

/-- The rest after a beginning is what was appended to it. -/
theorem after?_eq_some_iff {start cs rest : List Char} :
    after? start cs = some rest ↔ cs = start ++ rest := by
  induction start generalizing cs with
  | nil => rw [after?, Option.some.injEq, List.nil_append]
  | cons first more inductionHypothesis =>
    cases cs with
    | nil => exact ⟨nofun, nofun⟩
    | cons c later =>
      rw [after?, List.cons_append, List.cons.injEq]
      split
      · rename_i same
        rw [inductionHypothesis]
        exact ⟨fun whole => ⟨same.symm, whole⟩, fun both => both.2⟩
      · rename_i other
        exact ⟨nofun, fun both => absurd both.1.symm other⟩

/-- Whether a text occurs in another. -/
def occursIn (word : List Char) : List Char → Bool
  | [] => word.isEmpty
  | c :: rest => (after? word (c :: rest)).isSome || occursIn word rest

/-- The pieces between occurrences of a separator; there is always at least one. -/
def pieces (separator : Char) (cs : List Char) : List (List Char) := cs.splitOn separator

/-! ## Joining -/

/-- Texts one after the other with a separator between them. -/
def join (separator : String) (parts : List String) : String := separator.intercalate parts

end RegistryCache.Text
