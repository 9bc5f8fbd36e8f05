import Mathlib.Algebra.Order.Floor.Ring
import Mathlib.Data.Rat.Floor
import Mathlib.Tactic.FieldSimp
import Mathlib.Tactic.Positivity
import Mathlib.Tactic.Ring
import Runbook.Number.Decimal

/-!
This module contains the numbers that decimals stand for, and the proof that sums, differences and
products of decimals are exact.
-/

namespace Runbook.Number.Decimal

def value (d : Decimal) : ℚ :=
  d.digits * (10 : ℚ) ^ (-d.scale)

theorem ten_zpow_pos (k : ℤ) : (0 : ℚ) < (10 : ℚ) ^ k :=
  zpow_pos (by norm_num) k

theorem ten_zpow_ne_zero (k : ℤ) : (10 : ℚ) ^ k ≠ 0 :=
  (ten_zpow_pos k).ne'

theorem ten_zpow_add (k l : ℤ) : (10 : ℚ) ^ (k + l) = (10 : ℚ) ^ k * (10 : ℚ) ^ l :=
  zpow_add₀ (by norm_num) k l

theorem cast_ten_pow {k : ℤ} (h : 0 ≤ k) : (((10 : ℤ) ^ k.toNat : ℤ) : ℚ) = (10 : ℚ) ^ k := by
  rw [Int.cast_pow, ← zpow_natCast, Int.toNat_of_nonneg h]
  rfl

theorem value_eq_digitsAt {d : Decimal} {scale : ℤ} (h : d.scale ≤ scale)
    : d.value = d.digitsAt scale * (10 : ℚ) ^ (-scale) := by
  unfold value digitsAt
  rw [Int.cast_mul, cast_ten_pow (by omega), mul_assoc, ← ten_zpow_add]
  congr 2
  omega

theorem value_ofInt (n : ℤ) : (ofInt n).value = n := by
  simp [value, ofInt]

theorem value_neg (d : Decimal) : d.neg.value = -d.value := by
  simp [value, neg]

theorem value_add (a b : Decimal) : (a.add b).value = a.value + b.value := by
  rw [value_eq_digitsAt (le_max_left a.scale b.scale),
    value_eq_digitsAt (le_max_right a.scale b.scale), ← add_mul, ← Int.cast_add]
  rfl

theorem value_sub (a b : Decimal) : (a.sub b).value = a.value - b.value := by
  rw [value_eq_digitsAt (le_max_left a.scale b.scale),
    value_eq_digitsAt (le_max_right a.scale b.scale), ← sub_mul, ← Int.cast_sub]
  rfl

theorem sameValue_iff (a b : Decimal) : a.sameValue b = true ↔ a.value = b.value := by
  rw [value_eq_digitsAt (le_max_left a.scale b.scale),
    value_eq_digitsAt (le_max_right a.scale b.scale), mul_left_inj' (ten_zpow_ne_zero _),
    Int.cast_inj]
  simp [sameValue]

theorem lt_iff (a b : Decimal) : a.lt b = true ↔ a.value < b.value := by
  rw [value_eq_digitsAt (le_max_left a.scale b.scale),
    value_eq_digitsAt (le_max_right a.scale b.scale), mul_lt_mul_iff_left₀ (ten_zpow_pos _),
    Int.cast_lt]
  simp [lt]

theorem isZero_iff (d : Decimal) : d.isZero = true ↔ d.value = 0 := by
  simp [isZero, value, ten_zpow_ne_zero]

theorem isOne_iff (d : Decimal) : d.isOne = true ↔ d.value = 1 := by
  rw [isOne, sameValue_iff]
  simp [value]

theorem value_mul (a b : Decimal) : (a.mul b).value = a.value * b.value := by
  unfold mul
  split
  . next h =>
    rw [(isOne_iff a).mp h, one_mul]
  . split
    . next h =>
      rw [(isOne_iff b).mp h, mul_one]
    . unfold value
      rw [neg_add, ten_zpow_add, Int.cast_mul]
      ring

theorem value_mul_ten_pow {d : Decimal} (h : 0 ≤ d.scale)
    : d.value * ((10 : ℤ) ^ d.scale.toNat : ℤ) = d.digits := by
  unfold value
  rw [cast_ten_pow h, mul_assoc, ← ten_zpow_add, neg_add_cancel, zpow_zero, mul_one]

theorem isWhole_of_value {d : Decimal} {n : ℤ} (h : d.value = n) : d.isWhole = true := by
  unfold isWhole
  rw [Bool.or_eq_true, decide_eq_true_eq, beq_iff_eq]
  by_cases hscale : d.scale ≤ 0
  . exact .inl hscale
  . have hdigits := value_mul_ten_pow (d := d) (by omega)
    rw [h] at hdigits
    right
    apply Int.emod_eq_zero_of_dvd
    apply Dvd.intro_left n
    exact_mod_cast hdigits

theorem value_of_isWhole {d : Decimal} (h : d.isWhole = true) : d.value = d.toInt := by
  unfold isWhole at h
  rw [Bool.or_eq_true, decide_eq_true_eq, beq_iff_eq] at h
  unfold toInt
  split
  . unfold value
    rw [Int.cast_mul, cast_ten_pow (by omega)]
  . next hscale =>
    have hdvd := Int.dvd_of_emod_eq_zero (h.resolve_left hscale)
    have hpow : ((10 : ℤ) ^ d.scale.toNat : ℚ) ≠ 0 := by positivity
    apply mul_right_cancel₀ hpow
    rw [← Int.cast_pow]
    rw [value_mul_ten_pow (by omega), ← Int.cast_mul, Int.ediv_mul_cancel hdvd]

end Runbook.Number.Decimal
