import Mathlib.Data.List.Basic
import Mathlib.Tactic.Tauto
import RegistryCache.Text.Utf8

/-! # The order of texts by their bytes

Texts compare character by character, and their bytes byte by byte.  A character with a smaller number
has smaller bytes (`encodeChar_append_lt`), so the two orders are one (`encode_lt`).
-/

namespace RegistryCache.Text.Utf8

theorem toNat_ofNat_byte {n : Nat} (byte : n < 256) : (UInt8.ofNat n).toNat = n :=
  UInt8.toNat_ofNat_of_lt' byte

theorem toNat_lt_max (c : Char) : c.val.toNat < 0x110000 := by
  have valid := c.valid
  simp only [UInt32.isValidChar, Nat.isValidChar] at valid
  omega

/-- Numbers compare like their digits to the base 64, the highest first. -/
theorem digits_lt {n m : Nat} (below : n < m) :
    n / 262144 < m / 262144 ∨ n / 262144 = m / 262144 ∧
      (n / 4096 % 64 < m / 4096 % 64 ∨ n / 4096 % 64 = m / 4096 % 64 ∧
        (n / 64 % 64 < m / 64 % 64 ∨ n / 64 % 64 = m / 64 % 64 ∧ n % 64 < m % 64)) := by
  omega

/-- A character with a smaller number has the smaller bytes, whatever follows. -/
theorem encodeChar_append_lt {c d : Char} (below : c < d) (xs ys : List UInt8) :
    String.utf8EncodeChar c ++ xs < String.utf8EncodeChar d ++ ys := by
  have less : c.val.toNat < d.val.toNat := below
  have bound := toNat_lt_max d
  unfold String.utf8EncodeChar
  dsimp only
  generalize c.val.toNat = n at *
  generalize d.val.toNat = m at *
  -- one case for each pair of lengths: where these differ, the first bytes decide
  split_ifs <;>
    simp (disch := omega) only [List.cons_append, List.nil_append, List.cons_lt_cons_iff,
      UInt8.lt_iff_toNat_lt, ← UInt8.toNat_inj, toNat_ofNat_byte] <;>
    try omega
  -- four bytes each
  have digits := digits_lt less
  have lead : n / 262144 % 8 = n / 262144 := by omega
  have lead' : m / 262144 % 8 = m / 262144 := by omega
  simp only [lead, lead', Nat.add_lt_add_iff_right, Nat.add_right_cancel_iff]
  tauto

theorem encode_cons (c : Char) (cs : List Char) :
    encode (c :: cs) = String.utf8EncodeChar c ++ encode cs := rfl

/-- The smaller text has the smaller bytes. -/
theorem encode_lt {cs ds : List Char} (below : cs < ds) : encode cs < encode ds := by
  induction cs generalizing ds with
  | nil =>
    cases ds with
    | nil => cases below
    | cons d ds =>
      rw [encode_cons]
      cases bytes : String.utf8EncodeChar d with
      | nil => exact absurd bytes String.utf8EncodeChar_ne_nil
      | cons b rest => exact List.nil_lt_cons b _
  | cons c cs inductionHypothesis =>
    cases ds with
    | nil => cases below
    | cons d ds =>
      rw [encode_cons, encode_cons]
      rcases List.cons_lt_cons_iff.mp below with less | ⟨rfl, less⟩
      · exact encodeChar_append_lt less _ _
      · exact List.append_left_lt (inductionHypothesis less)

end RegistryCache.Text.Utf8
