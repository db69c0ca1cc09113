import Mathlib.Algebra.Order.Field.Basic
import Mathlib.Data.Rat.Cast.Order
import Mathlib.Tactic.FieldSimp
import Mathlib.Tactic.Linarith
import Mathlib.Tactic.Positivity
import Mathlib.Tactic.Ring
import RegistryCache.Time.Duration

/-! # Tenths of a second

The tenths that a duration below a minute is shown with are rounded three times: the part below a
second and the sum with the whole seconds to 53 binary digits each, and that sum to tenths.  Below a
minute the first two roundings move the value by less than a nanosecond, and a tie between two tenths
lies on a whole number of nanoseconds; so what comes out is always a nearest tenth
(`Duration.tenths_nearest`).
-/

namespace RegistryCache

namespace Time.Binary

/-! ## One rounding -/

/-- Rounding to a natural moves a quotient by half a unit at most. -/
theorem roundEven_error (n : Nat) {d : Nat} (pos : 0 < d) :
    |(roundEven n d : ℚ) - n / d| ≤ 1 / 2 := by
  have pos' : (0 : ℚ) < d := by exact_mod_cast pos
  have parts : (n : ℚ) / d = (n / d : ℕ) + (n % d : ℕ) / d := by
    rw [eq_comm, eq_div_iff pos'.ne', add_mul, div_mul_cancel₀ _ pos'.ne', mul_comm]
    exact_mod_cast Nat.div_add_mod n d
  have below : ((n % d : ℕ) : ℚ) / d < 1 := by
    rw [div_lt_one pos']
    exact_mod_cast Nat.mod_lt n pos
  rw [parts, abs_le, roundEven]
  split
  · rename_i up
    have far : 1 / 2 ≤ ((n % d : ℕ) : ℚ) / d := by
      rw [div_le_div_iff₀ two_pos pos']
      exact_mod_cast (by omega : 1 * d ≤ n % d * 2)
    push_cast
    constructor <;> linarith
  · rename_i down
    have near : ((n % d : ℕ) : ℚ) / d ≤ 1 / 2 := by
      rw [div_le_div_iff₀ pos' two_pos]
      exact_mod_cast (by omega : n % d * 2 ≤ 1 * d)
    have nonneg : (0 : ℚ) ≤ ((n % d : ℕ) : ℚ) / d := by positivity
    constructor <;> linarith

/-- The number that a fraction stands for. -/
def Fraction.value (f : Fraction) : ℚ := f.digits / 2 ^ f.places

/-- Rounding a quotient at some binary place moves it by half of that place at most. -/
theorem roundEven_shiftLeft_error (n : Nat) {d : Nat} (pos : 0 < d) (places : Nat) :
    |(roundEven (n <<< places) d : ℚ) / 2 ^ places - n / d| ≤ 1 / 2 / 2 ^ places := by
  have scaled := roundEven_error (n <<< places) pos
  have apart : (roundEven (n <<< places) d : ℚ) / 2 ^ places - n / d =
      ((roundEven (n <<< places) d : ℚ) - (n <<< places : ℕ) / d) / 2 ^ places := by
    rw [Nat.shiftLeft_eq]
    push_cast
    field_simp
  rw [apart, abs_div, abs_of_pos (by positivity : (0 : ℚ) < 2 ^ places)]
  gcongr

theorem nearest_error (n : Nat) {d : Nat} (pos : 0 < d) :
    |(nearest n d).value - n / d| ≤ 1 / 2 / 2 ^ (nearest n d).places := by
  unfold nearest
  split
  · rename_i zero
    simp [zero, Fraction.value]
  · dsimp only
    split
    · exact roundEven_shiftLeft_error n pos _
    · exact roundEven_shiftLeft_error n pos _

/-! ## How many places there are -/

theorem le_places_nearest {n : Nat} (nonzero : n ≠ 0) (d : Nat) :
    52 + d.log2 ≤ (nearest n d).places + n.log2 := by
  rw [nearest, if_neg nonzero]
  dsimp only
  split
  · dsimp only
    omega
  · dsimp only
    omega

/-- A quotient below `2 ^ k` is held with an error of one unit in place `53 - k` at most. -/
theorem nearest_error_of_lt {n d k : Nat} (pos : 0 < d) (small : (n : ℚ) / d < 2 ^ k)
    (fits : k ≤ 52) : |(nearest n d).value - n / d| ≤ 1 / 2 ^ (53 - k) := by
  by_cases zero : n = 0
  · simp [zero, nearest, Fraction.value]
  · have bounded : n < 2 ^ (d.log2 + 1 + k) := by
      rw [div_lt_iff₀ (by exact_mod_cast pos)] at small
      have product : n < 2 ^ k * d := by exact_mod_cast small
      calc n < 2 ^ k * d := product
        _ ≤ 2 ^ k * 2 ^ (d.log2 + 1) := Nat.mul_le_mul_left _ Nat.lt_log2_self.le
        _ = 2 ^ (d.log2 + 1 + k) := by rw [← pow_add, add_comm]
    have digits := (Nat.log2_lt zero).mpr bounded
    have places := le_places_nearest zero d
    calc |(nearest n d).value - n / d| ≤ 1 / 2 / 2 ^ (nearest n d).places := nearest_error n pos
      _ ≤ 1 / 2 / 2 ^ (52 - k) := by
        gcongr
        · norm_num
        · omega
      _ = 1 / 2 ^ (53 - k) := by
        rw [div_div, ← pow_succ', show 52 - k + 1 = 53 - k by omega]

theorem addWhole_error (f : Fraction) {whole k : Nat} (small : whole + f.value < 2 ^ k)
    (fits : k ≤ 52) : |(f.addWhole whole).value - (whole + f.value)| ≤ 1 / 2 ^ (53 - k) := by
  have sum : ((whole <<< f.places + f.digits : ℕ) : ℚ) / (1 <<< f.places : ℕ) =
      whole + f.value := by
    rw [Nat.shiftLeft_eq, Nat.one_shiftLeft, Fraction.value]
    push_cast
    field_simp
  have pos : 0 < 1 <<< f.places := by
    rw [Nat.one_shiftLeft]
    exact Nat.two_pow_pos _
  have held := nearest_error_of_lt (k := k) pos (by rwa [sum]) fits
  rwa [sum] at held

theorem Fraction.tenths_error (f : Fraction) : |(f.tenths : ℚ) - 10 * f.value| ≤ 1 / 2 := by
  have rounded := roundEven_error (f.digits * 10) (Nat.two_pow_pos f.places)
  have scaled : ((f.digits * 10 : ℕ) : ℚ) / (2 ^ f.places : ℕ) = 10 * f.value := by
    rw [Fraction.value]
    push_cast
    ring
  rwa [scaled, ← Nat.one_shiftLeft] at rounded

/-- The error of all three roundings together, for a part of one that is added to a whole number. -/
theorem tenths_addWhole_nearest_error {n d whole k : Nat} (part : n < d) (room : whole + 2 ≤ 2 ^ k)
    (fits : k ≤ 52) : |(((nearest n d).addWhole whole).tenths : ℚ) - 10 * (whole + n / d)| ≤
      1 / 2 + 10 * (1 / 2 ^ (53 - k) + 1 / 2 ^ 53) := by
  have pos : 0 < d := Nat.zero_lt_of_lt part
  have own : (n : ℚ) / d < 1 := by
    rw [div_lt_one (by exact_mod_cast pos)]
    exact_mod_cast part
  have first : |(nearest n d).value - n / d| ≤ 1 / 2 ^ 53 :=
    nearest_error_of_lt (k := 0) pos (by rwa [pow_zero]) (Nat.zero_le _)
  have below : whole + (nearest n d).value < 2 ^ k := by
    have room' : (whole : ℚ) + 2 ≤ 2 ^ k := by exact_mod_cast room
    have small : (1 : ℚ) / 2 ^ 53 ≤ 1 := by norm_num
    have upper := (abs_le.mp first).2
    linarith
  have second := addWhole_error (nearest n d) below fits
  have third := ((nearest n d).addWhole whole).tenths_error
  rw [abs_le] at first second third ⊢
  constructor <;> linarith

end Time.Binary

/-! ## Durations below a minute -/

namespace Duration

variable {d : Duration}

theorem tenths_error (short : d.secs.toNat < 60) :
    |(d.tenths : ℚ) - d.inNanos / 100000000| ≤ 1 / 2 + 1 / 1000000000 := by
  have rounded := Time.Binary.tenths_addWhole_nearest_error (k := 6) d.nanos.isLt
    (by omega : d.secs.toNat + 2 ≤ 2 ^ 6) (by decide)
  have length : (d.inNanos : ℚ) / 100000000 =
      10 * (d.secs.toNat + d.nanos.val / (1000000000 : ℕ)) := by
    rw [inNanos]
    push_cast
    ring
  rw [length, tenths]
  refine rounded.trans ?_
  norm_num

/-- What is shown of a duration below a minute is a nearest number of tenths. -/
theorem tenths_nearest (short : d.secs.toNat < 60) :
    |(d.tenths * 100000000 : ℤ) - d.inNanos| ≤ 50000000 := by
  have moved := abs_le.mp (tenths_error short)
  have scaled : ((|(d.tenths * 100000000 : ℤ) - d.inNanos| : ℤ) : ℚ) < (50000001 : ℤ) := by
    push_cast
    rw [abs_lt]
    constructor <;> linarith
  -- Both are whole numbers of nanoseconds, so there is no room for a part of one.
  have counted : |(d.tenths * 100000000 : ℤ) - d.inNanos| < 50000001 := Int.cast_lt.mp scaled
  omega

theorem inNanos_between (d : Duration) : d.secs.toNat * 1000000000 ≤ d.inNanos ∧
    d.inNanos < (d.secs.toNat + 1) * 1000000000 := by
  have bounded := d.nanos.isLt
  rw [inNanos]
  omega

theorem ofNanos_inNanos (d : Duration) : ofNanos d.inNanos = d := by
  obtain ⟨secs, nanos⟩ := d
  have bounded := nanos.isLt
  have whole : (secs.toNat * 1000000000 + nanos.val) / 1000000000 = secs.toNat := by omega
  have rest : (secs.toNat * 1000000000 + nanos.val) % 1000000000 = nanos.val := by omega
  simp [ofNanos, inNanos, whole, rest]

theorem tenths_le (short : d.secs.toNat < 60) : d.tenths ≤ 600 := by
  have nearest := abs_le.mp (tenths_nearest short)
  have length := d.inNanos_between
  omega

/-- From fifty milliseconds below a minute on, the tenths of a whole minute are shown. -/
theorem le_tenths_iff (short : d.secs.toNat < 60) :
    600 ≤ d.tenths ↔ 59950000000 ≤ d.inNanos := by
  by_cases tie : d.inNanos = 59950000000
  · -- The nearest tenths do not settle a tie; here the binary digits lie above it.
    have up : (ofNanos 59950000000).tenths = 600 := by decide
    rw [← ofNanos_inNanos d, tie, up]
    decide
  · have nearest := abs_le.mp (tenths_nearest short)
    omega

end Duration

end RegistryCache
