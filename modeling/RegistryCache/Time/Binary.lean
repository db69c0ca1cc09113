/-! # Binary fractions of 53 digits

A length of time shown in seconds passes through a binary fraction before it is cut to one decimal:
both its part below a second and the sum with the whole seconds are held in 53 binary digits.  This
decides on which side a decimal tie falls.  All arithmetic here is exact, on naturals.
-/

namespace RegistryCache.Time.Binary

/-- The quotient `n / d` rounded to the nearest natural, a tie going to the even neighbour. -/
def roundEven (n d : Nat) : Nat :=
  let q := n / d
  let r := n % d
  if d < 2 * r ∨ (2 * r = d ∧ q % 2 = 1) then q + 1 else q

/-- The fraction `digits / 2 ^ places`. -/
structure Fraction where
  digits : Nat
  places : Nat
  deriving DecidableEq, Repr

/-- The binary fraction of 53 digits nearest to `n / d`, a tie going to the even neighbour.  The
    value is meant to lie below `2 ^ 53`, so that the digits reach below the point. -/
def nearest (n d : Nat) : Fraction :=
  if n = 0 then ⟨0, 0⟩
  else
    let places := 53 + d.log2 - n.log2
    if n <<< places < d <<< 53 then ⟨roundEven (n <<< places) d, places⟩
    else ⟨roundEven (n <<< (places - 1)) d, places - 1⟩

/-- A whole number added to a fraction, the sum again held in 53 digits. -/
def Fraction.addWhole (f : Fraction) (whole : Nat) : Fraction :=
  nearest (whole <<< f.places + f.digits) (1 <<< f.places)

/-- The nearest number of tenths, a tie going to the even neighbour. -/
def Fraction.tenths (f : Fraction) : Nat := roundEven (f.digits * 10) (1 <<< f.places)

end RegistryCache.Time.Binary
