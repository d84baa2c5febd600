import Mathlib.Algebra.Group.Int.Defs
import Mathlib.Algebra.Group.Nat.Defs

/-!
Lengths in 32-bit words. A sum, a predecessor and a conversion to a signed word
each have their mathematical value on one side of a bound, and only there.
-/
namespace EspWolfssl.WordLengths

theorem ofNat_toNat {n : ℕ} (hn : n < 2 ^ 32) : (UInt32.ofNat n).toNat = n :=
  UInt32.toNat_ofNat_of_lt' hn

/-- A sum of two lengths is their sum exactly when it does not wrap. -/
theorem add_toNat_iff {i : UInt32} {n : ℕ} (hn : n < 2 ^ 32) :
    (i + UInt32.ofNat n).toNat = i.toNat + n ↔ i.toNat + n < 2 ^ 32 := by
  have hsum : (i + UInt32.ofNat n).toNat = (i.toNat + n) % 2 ^ 32 := by
    rw [UInt32.toNat_add, ofNat_toNat hn]
  have hi : i.toNat < 2 ^ 32 := i.toNat_lt
  rw [hsum]
  omega

theorem add_toNat {i : UInt32} {n : ℕ} (h : i.toNat + n < 2 ^ 32) :
    (i + UInt32.ofNat n).toNat = i.toNat + n :=
  (add_toNat_iff (by omega)).mpr h

theorem succ_toNat_iff {n : UInt32} : (n + 1).toNat = n.toNat + 1 ↔ n.toNat + 1 < 2 ^ 32 :=
  add_toNat_iff (i := n) (n := 1) (by decide)

/-- The largest length has the successor zero. -/
theorem succ_toNat_of_wrap {n : UInt32} (hwrap : ¬ n.toNat + 1 < 2 ^ 32) :
    (n + 1).toNat = 0 := by
  have hn : n.toNat < 2 ^ 32 := n.toNat_lt
  rw [UInt32.toNat_add, UInt32.toNat_one]
  omega

theorem toNat_ne_zero {n : UInt32} (hn : n ≠ 0) : n.toNat ≠ 0 :=
  fun hzero => hn (UInt32.toNat_inj.mp hzero)

theorem pred_toNat {n : UInt32} (hn : n ≠ 0) : (n - 1).toNat = n.toNat - 1 := by
  have hpos : (1 : UInt32) ≤ n := by
    have hne := toNat_ne_zero hn
    rw [UInt32.le_iff_toNat_le, UInt32.toNat_one]
    omega
  rw [UInt32.toNat_sub_of_le n 1 hpos, UInt32.toNat_one]

theorem toInt32_toInt (n : UInt32) : n.toInt32.toInt = (n.toNat : ℤ).bmod (2 ^ 32) := by
  rw [UInt32.toInt32, Int32.toInt, BitVec.toInt_eq_toNat_bmod]
  rfl

/-- A length converted to a signed word is itself exactly in the lower half. -/
theorem toInt32_exact_iff (n : UInt32) :
    n.toInt32.toInt = n.toNat ↔ n.toNat ≤ 2 ^ 31 - 1 := by
  have hn : n.toNat < 2 ^ 32 := n.toNat_lt
  rw [toInt32_toInt, Int.bmod_def]
  omega

/-- A signed word that came from a length and is not negative is that length. -/
theorem toInt32_of_nonneg {n : UInt32} (hsign : 0 ≤ n.toInt32) : n.toInt32.toInt = n.toNat := by
  have hn : n.toNat < 2 ^ 32 := n.toNat_lt
  rw [Int32.le_iff_toInt_le, toInt32_toInt, Int32.toInt_zero, Int.bmod_def] at hsign
  rw [toInt32_toInt, Int.bmod_def]
  omega

/-- Every signed word but the least has its negation. -/
theorem neg_toInt {n : Int32} (hn : n ≠ Int32.minValue) : (-n).toInt = -n.toInt := by
  have hle : n.toInt < 2 ^ 31 := n.toInt_lt
  have hge : -2 ^ 31 ≤ n.toInt := n.le_toInt
  have hne : n.toInt ≠ -2 ^ 31 := by
    intro hmin
    exact hn (Int32.toInt_inj.mp hmin)
  rw [Int32.toInt_neg, Int.bmod_def]
  omega

end EspWolfssl.WordLengths
