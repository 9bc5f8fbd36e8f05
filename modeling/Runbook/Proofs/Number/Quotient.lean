import Mathlib.Algebra.Order.Round
import Mathlib.Tactic.LinearCombination
import Runbook.Proofs.Number.Value

/-!
This module contains the proof that the quotient of two decimals is that of their values, rounded at
a place that leaves it as many digits as quotients are worked out to.
-/

namespace Runbook.Number

/--
The integer next to `x`. Of two that are equally near it is the one further from zero.
-/
def nearest (x : ℚ) : ℤ :=
  if 0 ≤ x then round x else -round (-x)

/--
`q` is `x`, or `x` rounded at some decimal place behind its first `precision` digits.
-/
def Rounds (x q : ℚ) : Prop :=
  q = x ∨
    ∃ k : ℤ, (10 : ℚ) ^ (Decimal.precision - 1) ≤ |x * (10 : ℚ) ^ k| ∧
      q = nearest (x * (10 : ℚ) ^ k) * (10 : ℚ) ^ (-k)

/--
`x` is written with at most `precision` decimal digits, zeros at either end aside.
-/
def Short (x : ℚ) : Prop :=
  ∃ n k : ℤ, |n| < 10 ^ Decimal.precision ∧ x = n * (10 : ℚ) ^ (-k)

theorem nearest_intCast (n : ℤ) : nearest n = n := by
  unfold nearest
  split
  . exact round_intCast n
  . rw [← Int.cast_neg, round_intCast, neg_neg]

theorem nearest_neg {x : ℚ} (h : 0 < x) : nearest (-x) = -nearest x := by
  unfold nearest
  rw [if_neg (by linarith), if_pos h.le, neg_neg]

theorem Rounds.eq_of_short {x q : ℚ} (h : Rounds x q) (hshort : Short x) : q = x := by
  rcases h with h | ⟨k, hdigits, rfl⟩
  . exact h
  . obtain ⟨n, l, hn, rfl⟩ := hshort
    have hpos : (0 : ℚ) < (10 : ℚ) ^ (-l + k) := Decimal.ten_zpow_pos _
    have hshift : (n : ℚ) * (10 : ℚ) ^ (-l) * (10 : ℚ) ^ k = n * (10 : ℚ) ^ (-l + k) := by
      rw [mul_assoc, ← Decimal.ten_zpow_add]
    rw [hshift] at hdigits ⊢
    -- The place is behind the last digit, so that the shifted number is whole.
    have hplace : 0 ≤ -l + k := by
      have hlt : |(n : ℚ)| < (10 : ℚ) ^ Decimal.precision := by exact_mod_cast hn
      rw [abs_mul, abs_of_pos hpos] at hdigits
      have hpower : (10 : ℚ) ^ ((Decimal.precision - 1 : ℕ) : ℤ)
          < (10 : ℚ) ^ ((Decimal.precision : ℤ) + (-l + k)) := by
        rw [Decimal.ten_zpow_add, zpow_natCast, zpow_natCast]
        apply hdigits.trans_lt
        apply mul_lt_mul_of_pos_right hlt hpos
      have hexponent := (zpow_lt_zpow_iff_right₀ (by norm_num)).mp hpower
      unfold Decimal.precision at hexponent
      omega
    obtain ⟨m, hm⟩ : ∃ m : ℤ, (n : ℚ) * (10 : ℚ) ^ (-l + k) = m := by
      refine ⟨n * 10 ^ (-l + k).toNat, ?_⟩
      rw [Int.cast_mul, Decimal.cast_ten_pow hplace]
    rw [hm, nearest_intCast, ← hm, mul_assoc, ← Decimal.ten_zpow_add]
    congr 2
    omega

namespace Decimal

theorem raise_spec {num : ℕ} (den : ℕ) (scale : ℤ) (h : 0 < num)
    : ∃ t : ℕ, raise num den scale = (num * 10 ^ t, scale + t) ∧ den ≤ num * 10 ^ t ∧
        (t = 0 ∨ num * 10 ^ t < 10 * den) := by
  fun_induction raise num den scale with
  | case1 num scale hlt ih =>
    obtain ⟨t, heq, hle, hleast⟩ := ih (by omega)
    refine ⟨t + 1, ?_, ?_, .inr ?_⟩
    . rw [heq]
      congr 1
      . ring
      . push_cast
        ring
    . calc den ≤ 10 * num * 10 ^ t := hle
        _ = num * 10 ^ (t + 1) := by ring
    . rcases hleast with rfl | hleast
      . omega
      . calc num * 10 ^ (t + 1) = 10 * num * 10 ^ t := by ring
          _ < 10 * den := hleast
  | case2 num scale hge =>
    refine ⟨0, by simp, ?_, .inl rfl⟩
    omega

theorem longDivide_spec {den : ℕ} (hden : 0 < den) (places quotient : ℕ) (scale : ℤ) (rest : ℕ)
    (hrest : rest < 10 * den)
    : ∃ t quotient' rest' : ℕ,
        longDivide den places quotient scale rest = (quotient', scale + t, rest') ∧
        (10 * den * quotient + rest) * 10 ^ t = 10 * den * quotient' + rest' ∧
        rest' < 10 * den ∧ t ≤ places ∧ (rest' = 0 ∨ t = places) := by
  induction places generalizing quotient scale rest with
  | zero => exact ⟨0, quotient, rest, by simp [longDivide], by simp, hrest, le_rfl, .inr rfl⟩
  | succ places ih =>
    unfold longDivide
    split
    . next hzero =>
      exact ⟨0, quotient, rest, by simp, by simp, hrest, Nat.zero_le _, .inl hzero⟩
    . have hmod : 10 * (rest % den) < 10 * den := by
        have := Nat.mod_lt rest hden
        omega
      obtain ⟨t, quotient', rest', heq, hvalue, hlt, hle, hend⟩ :=
        ih (10 * quotient + rest / den) (scale + 1) (10 * (rest % den)) hmod
      refine ⟨t + 1, quotient', rest', ?_, ?_, hlt, Nat.succ_le_succ hle, ?_⟩
      . rw [heq]
        congr 2
        push_cast
        ring
      . rw [← hvalue]
        have hdivide := Nat.div_add_mod rest den
        calc (10 * den * quotient + rest) * 10 ^ (t + 1)
            = 10 * (10 * den * quotient + (den * (rest / den) + rest % den)) * 10 ^ t := by
              rw [hdivide]
              ring
          _ = (10 * den * (10 * quotient + rest / den) + 10 * (rest % den)) * 10 ^ t := by ring
      . omega

theorem ten_pow_le_of_digitCount (n : ℕ) (h : 0 < n) : 10 ^ (digitCount n - 1) ≤ n := by
  fun_induction digitCount n with
  | case1 n hlt =>
    rw [Nat.sub_self, pow_zero]
    omega
  | case2 n hge ih =>
    have := ih (by omega)
    have hpos : 0 < digitCount (n / 10) := by
      unfold digitCount
      split <;> omega
    calc 10 ^ (digitCount (n / 10) + 1 - 1) = 10 ^ (digitCount (n / 10) - 1) * 10 := by
          rw [← pow_succ]
          congr 1
          omega
      _ ≤ n := by omega

/--
`quotient` is `num · 10 ^ t / den` rounded half up, and it is exact unless it has the digits that a
quotient is worked out to.
-/
structure RoundsUp (num den t quotient : ℕ) : Prop where
  low : 2 * (den * quotient) ≤ 2 * (num * 10 ^ t) + den
  high : 2 * (num * 10 ^ t) + den < 2 * (den * (quotient + 1))
  digits : den * quotient = num * 10 ^ t ∨ den * 10 ^ (precision - 1) ≤ num * 10 ^ t

theorem le_of_longDivide {num den first t : ℕ} (hfirst : 0 < first) (hle : den * first ≤ num)
    (ht : t = precision - digitCount first) : den * 10 ^ (precision - 1) ≤ num * 10 ^ t := by
  have hdigits := ten_pow_le_of_digitCount first hfirst
  have hplaces : precision - 1 ≤ digitCount first - 1 + t := by
    unfold precision at *
    omega
  calc den * 10 ^ (precision - 1) ≤ den * 10 ^ (digitCount first - 1 + t) := by
        apply Nat.mul_le_mul_left
        apply Nat.pow_le_pow_right (by omega) hplaces
    _ = den * 10 ^ (digitCount first - 1) * 10 ^ t := by ring
    _ ≤ num * 10 ^ t := by
        apply Nat.mul_le_mul_right
        apply (Nat.mul_le_mul_left den hdigits).trans hle

theorem roundsUp_of_rest {num den t quotient rest : ℕ} (hden : 0 < den)
    (hvalue : 10 * (num * 10 ^ t) = 10 * (den * quotient) + rest) (hrest : rest < 10 * den)
    (hdigits : rest = 0 ∨ den * 10 ^ (precision - 1) ≤ num * 10 ^ t)
    : RoundsUp num den t (if 5 ≤ rest / den then quotient + 1 else quotient) := by
  have hround : 5 ≤ rest / den ↔ 5 * den ≤ rest := Nat.le_div_iff_mul_le hden
  have hnext (n : ℕ) : den * (n + 1) = den * n + den := by ring
  constructor
  . split
    . rw [hnext]
      omega
    . omega
  . split
    . rw [hnext, hnext]
      omega
    . rw [hnext]
      omega
  . cases hdigits with
    | inl hzero =>
      left
      rw [if_neg (by omega)]
      omega
    | inr hle => exact .inr hle

theorem roundsUp_of_divides {num den t quotient : ℕ} (hden : 0 < den)
    (hvalue : den * quotient = num * 10 ^ t) : RoundsUp num den t quotient where
  low := by omega
  high := by
    have hnext : den * (quotient + 1) = den * quotient + den := by ring
    omega
  digits := .inl hvalue

theorem ten_pow_le_of_raise {num den j : ℕ} (hnum : 0 < num) (hden : 0 < den)
    (h : j = 0 ∨ num * 10 ^ j < 10 * den) : 10 ^ j ≤ 10 * den := by
  rcases h with rfl | h
  . rw [pow_zero]
    omega
  . calc 10 ^ j ≤ num * 10 ^ j := Nat.le_mul_of_pos_left _ hnum
      _ ≤ 10 * den := h.le

theorem divideNat_spec {num den : ℕ} (scale : ℤ) (hnum : 0 < num) (hden : 0 < den)
    : ∃ t quotient : ℕ,
        divideNat num den scale = (quotient, scale + t) ∧ RoundsUp num den t quotient ∧
        10 ^ t ≤ den * 10 ^ (precision + 1) := by
  obtain ⟨j, hraise, hle, hleast⟩ := raise_spec den scale hnum
  have hplaces {t : ℕ} (ht : t ≤ precision) : 10 ^ (j + t) ≤ den * 10 ^ (precision + 1) := by
    calc 10 ^ (j + t) = 10 ^ j * 10 ^ t := pow_add ..
      _ ≤ 10 * den * 10 ^ precision :=
        Nat.mul_le_mul (ten_pow_le_of_raise hnum hden hleast) (Nat.pow_le_pow_right (by omega) ht)
      _ = den * 10 ^ (precision + 1) := by ring
  unfold divideNat
  rw [hraise]
  dsimp only
  have hdivide := Nat.div_add_mod (num * 10 ^ j) den
  have hfirst : 0 < num * 10 ^ j / den := Nat.div_pos hle hden
  have hlt := Nat.mod_lt (num * 10 ^ j) hden
  generalize num * 10 ^ j / den = first at *
  generalize num * 10 ^ j % den = rest at *
  -- Either the first digit leaves no rest, or long division works out the digits behind it.
  split
  . refine ⟨j, first, rfl, ?_, hplaces (Nat.zero_le _)⟩
    apply roundsUp_of_divides hden
    omega
  . obtain ⟨t, quotient, rest', heq, hvalue, hlt', hle', hend⟩ :=
      longDivide_spec hden (precision - digitCount first) first (scale + j) (10 * rest) (by omega)
    rw [heq]
    have hpow : num * 10 ^ (j + t) = num * 10 ^ j * 10 ^ t := by ring
    have hten : 10 * (num * 10 ^ (j + t)) = 10 * (den * quotient) + rest' := by
      calc 10 * (num * 10 ^ (j + t)) = (10 * den * first + 10 * rest) * 10 ^ t := by
            rw [hpow, ← hdivide]
            ring
        _ = 10 * (den * quotient) + rest' := by
            rw [hvalue]
            ring
    have hdigits : rest' = 0 ∨ den * 10 ^ (precision - 1) ≤ num * 10 ^ (j + t) := by
      apply hend.imp_right
      intro ht
      rw [hpow]
      apply le_of_longDivide hfirst _ ht
      omega
    have hscale : scale + ↑j + ↑t = scale + ((j + t : ℕ) : ℤ) := by omega
    rw [hscale]
    exact ⟨j + t, _, rfl, roundsUp_of_rest hden hten hlt' hdigits,
      hplaces (hle'.trans (Nat.sub_le _ _))⟩

theorem RoundsUp.nearest_eq {num den t quotient : ℕ} (h : RoundsUp num den t quotient)
    (hden : 0 < den) : nearest ((num : ℚ) / den * (10 : ℚ) ^ (t : ℤ)) = quotient := by
  have hpos : (0 : ℚ) < den := by exact_mod_cast hden
  have hlow : (2 : ℚ) * (den * quotient) ≤ 2 * (num * 10 ^ t) + den := by exact_mod_cast h.low
  have hhigh : (2 : ℚ) * (num * 10 ^ t) + den < 2 * (den * (quotient + 1)) := by
    exact_mod_cast h.high
  unfold nearest
  rw [zpow_natCast, if_pos (by positivity), round_eq, Int.floor_eq_iff, div_mul_eq_mul_div]
  constructor
  . rw [← sub_le_iff_le_add, le_div_iff₀ hpos]
    push_cast
    linarith
  . rw [← lt_sub_iff_add_lt, div_lt_iff₀ hpos]
    push_cast
    linarith

theorem RoundsUp.rounds {num den t quotient : ℕ} (h : RoundsUp num den t quotient)
    (hden : 0 < den) {sign : ℤ} (hsign : sign = 1 ∨ sign = -1) (hnum : 0 < num) (scale : ℤ)
    : Rounds (sign * ((num : ℚ) / den) * (10 : ℚ) ^ (-scale))
        (sign * quotient * (10 : ℚ) ^ (-(scale + t))) := by
  have hpos : (0 : ℚ) < den := by exact_mod_cast hden
  have hquotient : (0 : ℚ) < (num : ℚ) / den * (10 : ℚ) ^ (t : ℤ) := by
    rw [zpow_natCast]
    positivity
  have hshift : sign * ((num : ℚ) / den) * (10 : ℚ) ^ (-scale) * (10 : ℚ) ^ (scale + t)
      = sign * ((num : ℚ) / den * (10 : ℚ) ^ (t : ℤ)) := by
    rw [mul_assoc, ← ten_zpow_add, neg_add_cancel_left, mul_assoc]
  have hnearest : nearest (sign * ((num : ℚ) / den * (10 : ℚ) ^ (t : ℤ))) = sign * quotient := by
    rcases hsign with rfl | rfl
    . rw [Int.cast_one, one_mul, one_mul, h.nearest_eq hden]
    . rw [Int.cast_neg, Int.cast_one, neg_one_mul, neg_one_mul, nearest_neg hquotient,
        h.nearest_eq hden]
  rcases h.digits with hexact | hdigits
  . left
    have hvalue : (den : ℚ) * quotient = num * 10 ^ t := by exact_mod_cast hexact
    rw [neg_add, ten_zpow_add, zpow_neg _ (t : ℤ), zpow_natCast]
    field_simp
    linear_combination (sign : ℚ) * hvalue
  . right
    refine ⟨scale + t, ?_, ?_⟩
    . have hle : (den : ℚ) * 10 ^ (precision - 1) ≤ num * 10 ^ t := by exact_mod_cast hdigits
      have habs : |(sign : ℚ)| = 1 := by rcases hsign with rfl | rfl <;> simp
      rw [hshift, abs_mul, habs, one_mul, abs_of_pos hquotient, zpow_natCast, div_mul_eq_mul_div,
        le_div_iff₀ hpos, mul_comm]
      exact hle
    . rw [hshift, hnearest]
      push_cast
      rfl

theorem sign_eq_one_or {n : ℤ} (h : n ≠ 0) : n.sign = 1 ∨ n.sign = -1 := by
  rcases Int.lt_or_gt_of_ne h with h | h
  . exact .inr (Int.sign_eq_neg_one_of_neg h)
  . exact .inl (Int.sign_eq_one_of_pos h)

theorem cast_eq_sign_mul (n : ℤ) : (n : ℚ) = n.sign * (n.natAbs : ℚ) := by
  conv_lhs => rw [← Int.sign_mul_natAbs n]
  rw [Int.cast_mul, Int.cast_natCast]

theorem cast_div_cast (m : ℤ) {n : ℤ} (hn : n ≠ 0)
    : (m : ℚ) / n = ((m.sign * n.sign : ℤ) : ℚ) * ((m.natAbs : ℚ) / n.natAbs) := by
  conv_lhs => rw [cast_eq_sign_mul m, cast_eq_sign_mul n]
  rcases sign_eq_one_or hn with h | h <;> rw [h] <;> push_cast <;> ring

theorem value_div_value (a b : Decimal)
    : a.value / b.value = (a.digits : ℚ) / b.digits * (10 : ℚ) ^ (-(a.scale - b.scale)) := by
  unfold value
  rw [neg_sub, sub_eq_add_neg, add_comm, ten_zpow_add, zpow_neg _ b.scale]
  field_simp

theorem rounds_div (a b : Decimal) (hb : b.value ≠ 0)
    : Rounds (a.value / b.value) (a.div b).value := by
  unfold div
  split
  . next h =>
    left
    rw [Bool.or_eq_true, isZero_iff, isOne_iff] at h
    rcases h with h | h <;> simp [h]
  . next h =>
    have ha : a.digits ≠ 0 := by
      intro hzero
      simp [isZero, hzero] at h
    have hb' : b.digits ≠ 0 := by
      intro hzero
      simp [value, hzero] at hb
    rw [value_div_value]
    split
    . next heq =>
      left
      rw [beq_iff_eq] at heq
      simp [value, heq, hb']
    . obtain ⟨t, quotient, heq, hrounds, _⟩ :=
        divideNat_spec (a.scale - b.scale) (Int.natAbs_pos.mpr ha) (Int.natAbs_pos.mpr hb')
      -- The magnitudes are divided, and the sign is put in front of the quotient.
      have hsign : a.digits.sign * b.digits.sign = 1 ∨ a.digits.sign * b.digits.sign = -1 := by
        rcases sign_eq_one_or ha with h | h <;> rcases sign_eq_one_or hb' with h' | h' <;>
          simp [h, h']
      have h := hrounds.rounds (Int.natAbs_pos.mpr hb') hsign (Int.natAbs_pos.mpr ha)
        (a.scale - b.scale)
      rw [cast_div_cast a.digits hb', heq]
      unfold value
      push_cast at h ⊢
      exact h

theorem unit_le_abs_value {d : Decimal} (h : d.value ≠ 0) : (10 : ℚ) ^ (-d.scale) ≤ |d.value| := by
  have hdigits : d.digits ≠ 0 := by
    intro hzero
    simp [value, hzero] at h
  have hone : (1 : ℚ) ≤ |(d.digits : ℚ)| := by exact_mod_cast Int.one_le_abs hdigits
  have hpos := ten_zpow_pos (-d.scale)
  unfold value
  rw [abs_mul, abs_of_pos hpos]
  exact le_mul_of_one_le_left hpos.le hone

theorem scale_div (a b : Decimal) (hb : b.value ≠ 0)
    : (a.div b).scale = a.scale ∨
      (10 : ℚ) ^ (a.div b).scale ≤ (10 : ℚ) ^ a.scale * |b.value| * 10 ^ (precision + 1) := by
  have hpos := ten_zpow_pos a.scale
  have hdiff : (10 : ℚ) ^ (a.scale - b.scale) = (10 : ℚ) ^ a.scale * (10 : ℚ) ^ (-b.scale) := by
    rw [sub_eq_add_neg, ten_zpow_add]
  -- A divisor of one is taken off by its scale alone, any other by a long division.
  unfold div
  split
  . exact .inl rfl
  . next h =>
    right
    split
    . have hone : (1 : ℚ) ≤ 10 ^ (precision + 1) := one_le_pow₀ (by norm_num)
      show (10 : ℚ) ^ (a.scale - b.scale) ≤ _
      rw [hdiff]
      calc (10 : ℚ) ^ a.scale * (10 : ℚ) ^ (-b.scale) ≤ (10 : ℚ) ^ a.scale * |b.value| := by
            apply mul_le_mul_of_nonneg_left (unit_le_abs_value hb) hpos.le
        _ ≤ (10 : ℚ) ^ a.scale * |b.value| * 10 ^ (precision + 1) := by
            apply le_mul_of_one_le_right _ hone
            positivity
    . have ha : a.digits ≠ 0 := by
        intro hzero
        simp [isZero, hzero] at h
      have hb' : b.digits ≠ 0 := by
        intro hzero
        simp [value, hzero] at hb
      obtain ⟨t, quotient, heq, _, hplaces⟩ :=
        divideNat_spec (a.scale - b.scale) (Int.natAbs_pos.mpr ha) (Int.natAbs_pos.mpr hb')
      have hten : (10 : ℚ) ^ t ≤ |(b.digits : ℚ)| * 10 ^ (precision + 1) := by
        rw [← Int.cast_abs, ← Nat.cast_natAbs]
        exact_mod_cast hplaces
      have hvalue : |b.value| = |(b.digits : ℚ)| * (10 : ℚ) ^ (-b.scale) := by
        rw [value, abs_mul, abs_of_pos (ten_zpow_pos _)]
      rw [heq]
      show (10 : ℚ) ^ (a.scale - b.scale + t) ≤ _
      rw [ten_zpow_add, hdiff, zpow_natCast, hvalue]
      calc (10 : ℚ) ^ a.scale * (10 : ℚ) ^ (-b.scale) * 10 ^ t
          ≤ (10 : ℚ) ^ a.scale * (10 : ℚ) ^ (-b.scale)
              * (|(b.digits : ℚ)| * 10 ^ (precision + 1)) := by
            apply mul_le_mul_of_nonneg_left hten
            have := ten_zpow_pos (-b.scale)
            positivity
        _ = (10 : ℚ) ^ a.scale * (|(b.digits : ℚ)| * (10 : ℚ) ^ (-b.scale))
              * 10 ^ (precision + 1) := by ring

end Decimal

theorem abs_nearest_le (x : ℚ) : |(nearest x : ℚ)| ≤ |x| + 1 / 2 := by
  have hround (y : ℚ) : |(round y : ℚ)| ≤ |y| + 1 / 2 := by
    have hdistance := abs_sub_round y
    have htriangle := abs_sub_abs_le_abs_sub (round y : ℚ) y
    rw [abs_sub_comm] at hdistance
    linarith
  unfold nearest
  split
  . exact hround x
  . have hneg := hround (-x)
    rw [abs_neg x] at hneg
    rwa [Int.cast_neg, abs_neg]

theorem Rounds.abs_le {x q : ℚ} (h : Rounds x q) : |q| ≤ 2 * |x| := by
  rcases h with rfl | ⟨k, hdigits, rfl⟩
  . linarith [abs_nonneg q]
  . have hone : 1 ≤ |x * (10 : ℚ) ^ k| := (one_le_pow₀ (by norm_num)).trans hdigits
    have hnearest : |(nearest (x * (10 : ℚ) ^ k) : ℚ)| ≤ 2 * |x * (10 : ℚ) ^ k| := by
      linarith [abs_nearest_le (x * (10 : ℚ) ^ k)]
    have hpos := Decimal.ten_zpow_pos (-k)
    have hcancel : |x * (10 : ℚ) ^ k| * (10 : ℚ) ^ (-k) = |x| := by
      rw [abs_mul, abs_of_pos (Decimal.ten_zpow_pos k), mul_assoc, ← Decimal.ten_zpow_add,
        add_neg_cancel, zpow_zero, mul_one]
    rw [abs_mul, abs_of_pos hpos]
    calc |(nearest (x * (10 : ℚ) ^ k) : ℚ)| * (10 : ℚ) ^ (-k)
        ≤ 2 * |x * (10 : ℚ) ^ k| * (10 : ℚ) ^ (-k) := mul_le_mul_of_nonneg_right hnearest hpos.le
      _ = 2 * |x| := by rw [mul_assoc, hcancel]

end Runbook.Number
