import Runbook.Proofs.Calc.Rounding

/-!
This module contains the proof that the value of an expression has at most as many bits as the
largest shift count times the number of the expression's characters.
-/

namespace Runbook.Calc

open Number Text

def limit (size : ℕ) : ℚ :=
  2 ^ (maxShift * size)

theorem limit_pos (k : ℕ) : 0 < limit k :=
  pow_pos (by norm_num) _

theorem one_le_limit (k : ℕ) : 1 ≤ limit k :=
  one_le_pow₀ (by norm_num)

theorem limit_mono {j k : ℕ} (h : j ≤ k) : limit j ≤ limit k :=
  pow_le_pow_right₀ (by norm_num) (Nat.mul_le_mul_left _ h)

theorem limit_add (j k : ℕ) : limit (j + k) = limit j * limit k := by
  rw [limit, Nat.mul_add, pow_add]
  rfl

theorem limit_one : limit 1 = 2 ^ maxShift := by
  rw [limit, Nat.mul_one]

theorem pow_le_limit {b : ℚ} {n k : ℕ} (hpos : 0 ≤ b) (hb : b ≤ 16) (h : 4 * n ≤ maxShift * k)
    : b ^ n ≤ limit k := by
  calc b ^ n ≤ 16 ^ n := pow_le_pow_left₀ hpos hb n
    _ = 2 ^ (4 * n) := by
      rw [pow_mul]
      norm_num
    _ ≤ limit k := pow_le_pow_right₀ (by norm_num) h

theorem two_le_limit : 2 ≤ limit 1 := by
  rw [← pow_one 2]
  exact pow_le_limit (by norm_num) (by norm_num) (by decide)

theorem ten_pow_precision_le : (10 : ℚ) ^ (Decimal.precision + 1) ≤ limit 1 :=
  pow_le_limit (by norm_num) (by norm_num) (by decide)

theorem ten_pow_maxExponent_le : (10 : ℚ) ^ maxExponent ≤ limit 1 := by
  have hnat : 10 ^ maxExponent ≤ 2 ^ maxShift := by decide +kernel
  rw [limit_one]
  exact_mod_cast hnat

/--
The decimal and the unit of its last place are within the limit of `k` characters.
-/
structure DecimalWithin (k : ℕ) (d : Decimal) : Prop where
  value : |d.value| < limit k
  scale : (10 : ℚ) ^ d.scale ≤ limit k

def Value.Within (k : ℕ) : Value → Prop
  | bool _ => True
  | int n => |(n : ℚ)| < limit k
  | float d => DecimalWithin k d

namespace DecimalWithin

variable {j k : ℕ} {a b : Decimal}

theorem mono (h : DecimalWithin j a) (hle : j ≤ k) : DecimalWithin k a where
  value := h.value.trans_le (limit_mono hle)
  scale := h.scale.trans (limit_mono hle)

theorem ofInt {n : ℤ} (h : |(n : ℚ)| < limit k) : DecimalWithin k (.ofInt n) where
  value := by rwa [Decimal.value_ofInt]
  scale := by
    rw [Decimal.ofInt, zpow_zero]
    exact one_le_limit k

theorem neg (h : DecimalWithin k a) : DecimalWithin k a.neg where
  value := by
    rw [Decimal.value_neg, abs_neg]
    exact h.value
  scale := h.scale

section Binary

variable (ha : DecimalWithin j a) (hb : DecimalWithin k b)

include ha hb

theorem scale_max : (10 : ℚ) ^ (max a.scale b.scale) ≤ limit (j + k + 1) := by
  rcases max_choice a.scale b.scale with h | h
  . rw [h]
    exact ha.scale.trans (limit_mono (by omega))
  . rw [h]
    exact hb.scale.trans (limit_mono (by omega))

theorem abs_add_abs_lt : |a.value| + |b.value| < limit (j + k + 1) := by
  have hj := one_le_limit j
  have hk := one_le_limit k
  calc |a.value| + |b.value| < limit j + limit k := add_lt_add ha.value hb.value
    _ ≤ limit j * limit k + limit j * limit k := by
      apply add_le_add
      . exact le_mul_of_one_le_right (limit_pos j).le hk
      . exact le_mul_of_one_le_left (limit_pos k).le hj
    _ = limit j * limit k * 2 := by ring
    _ ≤ limit j * limit k * limit 1 := by
      apply mul_le_mul_of_nonneg_left two_le_limit
      positivity
    _ = limit (j + k + 1) := by rw [limit_add, limit_add]

theorem add : DecimalWithin (j + k + 1) (a.add b) where
  value := by
    rw [Decimal.value_add]
    exact (abs_add_le _ _).trans_lt (ha.abs_add_abs_lt hb)
  scale := ha.scale_max hb

theorem sub : DecimalWithin (j + k + 1) (a.sub b) where
  value := by
    rw [Decimal.value_sub]
    exact (abs_sub _ _).trans_lt (ha.abs_add_abs_lt hb)
  scale := ha.scale_max hb

theorem mul : DecimalWithin (j + k + 1) (a.mul b) where
  value := by
    rw [Decimal.value_mul, abs_mul]
    calc |a.value| * |b.value| < limit j * limit k :=
          mul_lt_mul'' ha.value hb.value (abs_nonneg _) (abs_nonneg _)
      _ = limit (j + k) := (limit_add j k).symm
      _ ≤ limit (j + k + 1) := limit_mono (by omega)
  scale := by
    unfold Decimal.mul
    split
    . exact hb.scale.trans (limit_mono (by omega))
    . split
      . exact ha.scale.trans (limit_mono (by omega))
      . calc (10 : ℚ) ^ (a.scale + b.scale) = (10 : ℚ) ^ a.scale * (10 : ℚ) ^ b.scale :=
              Decimal.ten_zpow_add ..
          _ ≤ limit j * limit k :=
            mul_le_mul ha.scale hb.scale (Decimal.ten_zpow_pos _).le (limit_pos j).le
          _ = limit (j + k) := (limit_add j k).symm
          _ ≤ limit (j + k + 1) := limit_mono (by omega)

omit ha in
theorem abs_div_le (hzero : b.value ≠ 0) : |a.value / b.value| ≤ |a.value| * limit k := by
  have hone : 1 ≤ limit k * |b.value| := by
    calc 1 = (10 : ℚ) ^ b.scale * (10 : ℚ) ^ (-b.scale) := by
          rw [← Decimal.ten_zpow_add, add_neg_cancel, zpow_zero]
      _ ≤ limit k * |b.value| :=
        mul_le_mul hb.scale (Decimal.unit_le_abs_value hzero) (Decimal.ten_zpow_pos _).le
          (limit_pos k).le
  rw [abs_div, div_le_iff₀ (abs_pos.mpr hzero), mul_assoc]
  exact le_mul_of_one_le_right (abs_nonneg _) hone

theorem div (hzero : b.value ≠ 0) : DecimalWithin (j + k + 1) (a.div b) where
  value := by
    calc |(a.div b).value| ≤ 2 * |a.value / b.value| := (Decimal.rounds_div a b hzero).abs_le
      _ ≤ limit 1 * (|a.value| * limit k) :=
        mul_le_mul two_le_limit (hb.abs_div_le hzero) (abs_nonneg _) (limit_pos 1).le
      _ < limit 1 * (limit j * limit k) := by
        apply mul_lt_mul_of_pos_left _ (limit_pos 1)
        exact mul_lt_mul_of_pos_right ha.value (limit_pos k)
      _ = limit (j + k + 1) := by
        rw [limit_add, limit_add]
        ring
  scale := by
    rcases Decimal.scale_div a b hzero with h | h
    . rw [h]
      exact ha.scale.trans (limit_mono (by omega))
    . calc (10 : ℚ) ^ (a.div b).scale
          ≤ (10 : ℚ) ^ a.scale * |b.value| * 10 ^ (Decimal.precision + 1) := h
        _ ≤ limit j * limit k * limit 1 := by
          apply mul_le_mul _ ten_pow_precision_le (by positivity)
          . exact (mul_pos (limit_pos j) (limit_pos k)).le
          . exact mul_le_mul ha.scale hb.value.le (abs_nonneg _) (limit_pos j).le
        _ = limit (j + k + 1) := by rw [limit_add, limit_add]

end Binary

end DecimalWithin

theorem Value.Within.mono {j k : ℕ} {v : Value} (h : v.Within j) (hle : j ≤ k) : v.Within k := by
  cases v with
  | bool b => trivial
  | int n => exact lt_of_lt_of_le h (limit_mono hle)
  | float d => exact DecimalWithin.mono h hle

theorem Value.Within.decimal {k : ℕ} {v : Value} (h : v.Within k) {d : Decimal}
    (hd : v.decimal? = some d) : DecimalWithin k d := by
  cases v with
  | bool b => cases hd
  | int n =>
    cases hd
    exact .ofInt h
  | float d' =>
    cases hd
    exact h

theorem Value.Within.collapse {k : ℕ} {v w : Value} (h : v.Within k) (hw : v.collapse = .ok w)
    : w.Within k := by
  unfold Value.collapse at hw
  split at hw
  . next d =>
    split at hw
    . next hwhole =>
      split at hw
      . cases hw
      . cases hw
        have hvalue := h.value
        rwa [Decimal.value_of_isWhole hwhole] at hvalue
    . cases hw
      exact h
  . cases hw
    exact h

theorem int_within_iff {k : ℕ} {n : ℤ}
    : (Value.int n).Within k ↔ n.natAbs < 2 ^ (maxShift * k) := by
  show |(n : ℚ)| < 2 ^ (maxShift * k) ↔ _
  rw [← Int.cast_abs, ← Nat.cast_natAbs]
  exact_mod_cast Iff.rfl

/--
The bits of an integer below its sign, which in two's complement are those of the complement if the
integer is negative.
-/
def lowBits : ℤ → ℕ
  | .ofNat m => m
  | .negSucc m => m

theorem lowBits_lt {m : ℤ} {b : ℕ} (h : m.natAbs < b) : lowBits m < b := by
  cases m with
  | ofNat m => exact h
  | negSucc m => exact Nat.lt_of_succ_lt h

theorem natAbs_le_of_lowBits {m : ℤ} {b : ℕ} (h : lowBits m < b) : m.natAbs ≤ b := by
  cases m with
  | ofNat m => exact h.le
  | negSucc m => exact h

section Bits

variable {m n : ℤ} {b : ℕ} (hm : lowBits m < 2 ^ b) (hn : lowBits n < 2 ^ b)

theorem clearBits_lt {m : ℕ} (hm : m < 2 ^ b) (n : ℕ) : clearBits m n < 2 ^ b :=
  Nat.xor_lt_two_pow hm (Nat.and_le_left.trans_lt hm)

theorem lowBits_bitNot (m : ℤ) : lowBits (bitNot m) = lowBits m := by
  cases m <;> rfl

include hm hn

theorem lowBits_bitAnd : lowBits (bitAnd m n) < 2 ^ b := by
  cases m with
  | ofNat m =>
    cases n with
    | ofNat n => exact Nat.and_lt_two_pow m hn
    | negSucc n => exact clearBits_lt hm n
  | negSucc m =>
    cases n with
    | ofNat n => exact clearBits_lt hn m
    | negSucc n => exact Nat.or_lt_two_pow hm hn

theorem lowBits_bitOr : lowBits (bitOr m n) < 2 ^ b := by
  cases m with
  | ofNat m =>
    cases n with
    | ofNat n => exact Nat.or_lt_two_pow hm hn
    | negSucc n => exact clearBits_lt hn m
  | negSucc m =>
    cases n with
    | ofNat n => exact clearBits_lt hm n
    | negSucc n => exact Nat.and_lt_two_pow m hn

theorem lowBits_bitXor : lowBits (bitXor m n) < 2 ^ b := by
  cases m <;> cases n <;> exact Nat.xor_lt_two_pow hm hn

end Bits

section Integers

variable {j k : ℕ} {m n r : ℤ}

theorem Arithmetic.within_of_applyInt {c : Arithmetic} (hm : (Value.int m).Within j)
    (hn : (Value.int n).Within k) (h : c.applyInt m n = .ok r)
    : (Value.int r).Within (j + k + 1) := by
  have ha : DecimalWithin j (.ofInt m) := .ofInt hm
  have hb : DecimalWithin k (.ofInt n) := .ofInt hn
  unfold applyInt at h
  cases c with
  | add =>
    cases h
    have hsum := (ha.add hb).value
    rwa [Decimal.value_add, Decimal.value_ofInt, Decimal.value_ofInt, ← Int.cast_add] at hsum
  | sub =>
    cases h
    have hdiff := (ha.sub hb).value
    rwa [Decimal.value_sub, Decimal.value_ofInt, Decimal.value_ofInt, ← Int.cast_sub] at hdiff
  | mul =>
    cases h
    have hproduct := (ha.mul hb).value
    rwa [Decimal.value_mul, Decimal.value_ofInt, Decimal.value_ofInt, ← Int.cast_mul] at hproduct
  | div =>
    dsimp only at h
    split at h
    . cases h
    . cases h
      rw [int_within_iff] at hm
      refine Value.Within.mono (j := j) (int_within_iff.mpr ?_) (by omega)
      rw [Int.natAbs_tdiv]
      exact (Nat.div_le_self ..).trans_lt hm

theorem int_within_of_lowBits (h : lowBits r < 2 ^ (maxShift * (j + k)))
    : (Value.int r).Within (j + k + 1) := by
  rw [int_within_iff]
  refine (natAbs_le_of_lowBits h).trans_lt (Nat.pow_lt_pow_right (by decide) ?_)
  exact Nat.mul_lt_mul_of_pos_left (Nat.lt_succ_self _) (by decide)

theorem le_maxShift_of_shiftCount {count : ℕ} (h : shiftCount n = .ok count)
    : count ≤ maxShift := by
  unfold shiftCount at h
  split at h
  . cases h
  . split at h
    . cases h
    . next hle =>
      cases h
      exact Nat.le_of_not_lt hle

theorem Bitwise.within_of_apply {c : Bitwise} (hm : (Value.int m).Within j)
    (hn : (Value.int n).Within k) (h : c.apply m n = .ok r)
    : (Value.int r).Within (j + k + 1) := by
  have hm' : lowBits m < 2 ^ (maxShift * (j + k)) :=
    lowBits_lt (int_within_iff.mp (hm.mono (by omega)))
  have hn' : lowBits n < 2 ^ (maxShift * (j + k)) :=
    lowBits_lt (int_within_iff.mp (hn.mono (by omega)))
  rw [int_within_iff] at hm
  unfold apply at h
  -- All but the shift to the left stay within the bits of their operands.
  cases c with
  | and =>
    cases h
    exact int_within_of_lowBits (lowBits_bitAnd hm' hn')
  | or =>
    cases h
    exact int_within_of_lowBits (lowBits_bitOr hm' hn')
  | xor =>
    cases h
    exact int_within_of_lowBits (lowBits_bitXor hm' hn')
  | andNot =>
    cases h
    rw [← lowBits_bitNot] at hn'
    exact int_within_of_lowBits (lowBits_bitAnd hm' hn')
  | rem =>
    dsimp only at h
    split at h
    . cases h
    . cases h
      refine Value.Within.mono (j := j) (int_within_iff.mpr ?_) (by omega)
      rw [Int.natAbs_tmod]
      exact (Nat.mod_le ..).trans_lt hm
  | shl =>
    obtain ⟨count, hcount, h⟩ := bind_eq_ok.mp h
    cases h
    refine Value.Within.mono (j := j + 1) (int_within_iff.mpr ?_) (by omega)
    calc (shiftLeft m count).natAbs = m.natAbs * 2 ^ count := by
          rw [shiftLeft, Int.natAbs_mul, Int.natAbs_pow]
          rfl
      _ < 2 ^ (maxShift * j) * 2 ^ maxShift :=
        Nat.mul_lt_mul_of_lt_of_le hm
          (Nat.pow_le_pow_right (by decide) (le_maxShift_of_shiftCount hcount)) (by positivity)
      _ = 2 ^ (maxShift * (j + 1)) := by rw [← pow_add, Nat.mul_succ]
  | shr =>
    obtain ⟨count, hcount, h⟩ := bind_eq_ok.mp h
    cases h
    refine Value.Within.mono (j := j) (int_within_iff.mpr (Nat.lt_of_le_of_lt ?_ hm)) (by omega)
    rw [shiftRight, Int.fdiv_eq_ediv_of_nonneg _ (by positivity)]
    zify
    exact Int.abs_ediv_le_abs m _

end Integers

theorem Arithmetic.within_of_applyDecimal {c : Arithmetic} {j k : ℕ} {a b d : Decimal}
    (ha : DecimalWithin j a) (hb : DecimalWithin k b) (h : c.applyDecimal a b = .ok d)
    : DecimalWithin (j + k + 1) d := by
  unfold applyDecimal at h
  cases c with
  | add =>
    cases h
    exact ha.add hb
  | sub =>
    cases h
    exact ha.sub hb
  | mul =>
    cases h
    exact ha.mul hb
  | div =>
    dsimp only at h
    split at h
    . cases h
    . next hzero =>
      cases h
      rw [Decimal.isZero_iff] at hzero
      exact ha.div hb hzero

theorem BinaryOp.within_of_apply {op : BinaryOp} {j k : ℕ} {a b v : Value} (ha : a.Within j)
    (hb : b.Within k) (h : op.apply a b = .ok v) : v.Within (j + k + 1) := by
  obtain ⟨r, rfl⟩ | ⟨c, m, n, r, rfl, rfl, rfl, hr, rfl⟩ | ⟨c, x, y, d, rfl, hx, hy, hd, rfl⟩
    | ⟨c, m, n, r, rfl, hm, hn, hr, rfl⟩ := BinaryOp.apply_cases h
  . trivial
  . exact Arithmetic.within_of_applyInt ha hb hr
  . exact Arithmetic.within_of_applyDecimal (ha.decimal hx) (hb.decimal hy) hd
  . exact Bitwise.within_of_apply (ha.collapse hm) (hb.collapse hn) hr

theorem UnaryOp.within_of_apply {op : UnaryOp} {k : ℕ} {a v : Value} (ha : a.Within k)
    (h : op.apply a = .ok v) : v.Within (k + 1) := by
  have hnot {n : ℤ} (hn : (Value.int n).Within k) : (Value.int (bitNot n)).Within (k + 1) := by
    have hbits := lowBits_lt (int_within_iff.mp hn)
    rw [← lowBits_bitNot] at hbits
    exact int_within_of_lowBits (j := k) (k := 0) hbits
  unfold apply at h
  split at h
  all_goals cases h
  . exact ha.mono (Nat.le_succ k)
  . exact ha.mono (Nat.le_succ k)
  . refine Value.Within.mono (j := k) ?_ (Nat.le_succ k)
    rw [int_within_iff] at ha ⊢
    rwa [Int.natAbs_neg]
  . exact DecimalWithin.mono ha.neg (Nat.le_succ k)
  . trivial
  . exact hnot ha
  . exact hnot ha

/--
The number of characters of the tree's tokens, counted as the least they can be.
-/
def Tree.size : Tree → ℕ
  | literal l => l.chars.length
  | bool _ => 1
  | unary _ e => e.size + 1
  | binary _ lhs rhs => lhs.size + rhs.size + 1

namespace Spelling

variable {s : Spelling}

theorem mantissa_lt (hs : s.WellFormed) : s.mantissa < 16 ^ s.digits.length := by
  unfold mantissa
  split
  . exact digitsValue_lt fun c _ => digitValue_lt c
  . next hhex =>
    have hdigits : ∀ c ∈ s.digits, digitValue c < 10 := by
      intro c hc
      have hdigit := hs.digits c hc
      rw [isDigit_of_not_isHex (by simpa using hhex)] at hdigit
      exact digitValue_lt_of_isDigit hdigit
    exact (digitsValue_lt hdigits).trans_le (Nat.pow_le_pow_left (by decide) _)

theorem mantissa_lt_limit (hs : s.WellFormed) : (s.mantissa : ℚ) < limit s.digits.length := by
  have hlt : (s.mantissa : ℚ) < 16 ^ s.digits.length := by exact_mod_cast mantissa_lt hs
  refine hlt.trans_le (pow_le_limit (by norm_num) le_rfl ?_)
  exact Nat.mul_le_mul_right _ (by decide)

theorem length_chars (s : Spelling)
    : s.chars.length = (if s.isHex then 2 else 0) + s.digits.length
        + (s.fraction.map fun _ => 1).getD 0 + (s.exponent.map (·.chars.length)).getD 0 := by
  unfold chars isHex body digits
  cases s.hexMark <;> cases s.fraction <;> cases s.exponent <;> simp <;> omega

theorem length_digits_le (s : Spelling) : s.digits.length ≤ s.chars.length := by
  have := s.length_chars
  omega

theorem length_exponent_pos (x : Exponent) : 0 < x.chars.length :=
  Nat.succ_pos _

theorem length_digits_lt {d : Decimal} (h : s.number = .inr d)
    : s.digits.length + 1 ≤ s.chars.length := by
  have hlength := s.length_chars
  unfold number at h
  cases hfraction : s.fraction with
  | some ds =>
    simp only [hfraction, Option.map_some, Option.getD_some] at hlength
    omega
  | none =>
    cases hx : s.exponent with
    | some x =>
      have := length_exponent_pos x
      simp only [hx, Option.map_some, Option.getD_some] at hlength
      omega
    | none =>
      rw [hfraction, hx] at h
      cases h

theorem length_of_isHex (hs : s.WellFormed) (hhex : s.isHex) {x : Exponent}
    (hx : s.exponent = some x) : 4 ≤ s.chars.length := by
  have hdigits := List.length_pos_iff.mpr hs.digits_ne_nil
  have hlength := s.length_chars
  have := length_exponent_pos x
  simp only [hhex, if_true, hx, Option.map_some, Option.getD_some] at hlength
  omega

theorem exists_exponent_of_isHex (hs : s.WellFormed) (hhex : s.isHex) {d : Decimal}
    (h : s.number = .inr d) : ∃ x, s.exponent = some x := by
  unfold number at h
  cases hx : s.exponent with
  | some x => exact ⟨x, rfl⟩
  | none =>
    cases hfraction : s.fraction with
    | none =>
      rw [hfraction, hx] at h
      cases h
    | some ds =>
      have hsome := hs.fraction hhex (by rw [hfraction]; rfl)
      rw [hx] at hsome
      cases hsome

theorem binaryFloat_within {mantissa k n : ℕ} {shift : ℤ} (hmantissa : (mantissa : ℚ) < limit k)
    (hshift : mantissa = 0 ∨ shift.natAbs ≤ maxShift) (hk : k + 1 ≤ n) (hn : 4 ≤ n)
    : DecimalWithin n (binaryFloat mantissa shift) where
  value := by
    rw [value_binaryFloat]
    rcases hshift with rfl | hshift
    . simpa using limit_pos n
    . have hpos : (0 : ℚ) < 2 ^ shift := zpow_pos (by norm_num) _
      have hpower : (2 : ℚ) ^ shift ≤ limit 1 := by
        rw [limit_one, ← zpow_natCast]
        exact zpow_le_zpow_right₀ (by norm_num) (by omega)
      rw [abs_mul, Nat.abs_cast, abs_of_pos hpos]
      calc (mantissa : ℚ) * 2 ^ shift < limit k * 2 ^ shift :=
            mul_lt_mul_of_pos_right hmantissa hpos
        _ ≤ limit k * limit 1 := mul_le_mul_of_nonneg_left hpower (limit_pos k).le
        _ = limit (k + 1) := (limit_add k 1).symm
        _ ≤ limit n := limit_mono hk
  scale := by
    unfold binaryFloat
    split
    . simpa using one_le_limit n
    . next hne =>
      have hle := hshift.resolve_left hne
      split
      . simpa using one_le_limit n
      . rw [zpow_natCast]
        exact (pow_le_limit (k := 4) (by norm_num) (by norm_num) (by omega)).trans (limit_mono hn)

theorem power_le (hr : s.InRange) (hhex : s.isHex = false)
    : s.power ≤ maxExponent ∧ -maxExponent ≤ s.power := by
  unfold power
  cases hx : s.exponent with
  | none => simp
  | some x =>
    have hle := hr x hx
    rw [if_neg (by simp [hhex])] at hle
    simp only [Option.map_some, Option.getD_some]
    unfold Exponent.value
    split <;> omega

theorem decimal_within (hs : s.WellFormed) (hr : s.InRange) (hhex : s.isHex = false)
    : DecimalWithin (s.digits.length + 1) ⟨s.mantissa, s.places - s.power⟩ where
  value := by
    obtain ⟨hle, _⟩ := power_le hr hhex
    have hpos := Decimal.ten_zpow_pos (-(s.places - s.power))
    have hpower : (10 : ℚ) ^ (-(s.places - s.power)) ≤ limit 1 := by
      refine le_trans ?_ ten_pow_maxExponent_le
      rw [← zpow_natCast]
      exact zpow_le_zpow_right₀ (by norm_num) (by omega)
    unfold Decimal.value
    rw [abs_mul, Int.cast_natCast, Nat.abs_cast, abs_of_pos hpos, limit_add]
    exact mul_lt_mul (mantissa_lt_limit hs) hpower hpos (limit_pos _).le
  scale := by
    obtain ⟨_, hle⟩ := power_le hr hhex
    have hplaces : s.places ≤ s.digits.length := by
      unfold places digits
      rw [List.length_append]
      omega
    calc (10 : ℚ) ^ ((s.places : ℤ) - s.power) ≤ (10 : ℚ) ^ ((s.digits.length : ℤ) + maxExponent) :=
          zpow_le_zpow_right₀ (by norm_num) (by omega)
      _ = 10 ^ s.digits.length * 10 ^ maxExponent := by
        rw [Decimal.ten_zpow_add, zpow_natCast, zpow_natCast]
      _ ≤ limit s.digits.length * limit 1 := by
        apply mul_le_mul _ ten_pow_maxExponent_le (by positivity) (limit_pos _).le
        exact pow_le_limit (by norm_num) (by norm_num) (Nat.mul_le_mul_right _ (by decide))
      _ = limit (s.digits.length + 1) := (limit_add _ 1).symm

end Spelling

theorem Literal.value_within (l : Literal) : l.value.Within l.chars.length := by
  have hs := l.wellFormed
  have hmantissa := Spelling.mantissa_lt_limit hs
  unfold Literal.value
  split
  . next n hnumber =>
    have hn : n = l.mantissa := by
      unfold Spelling.number at hnumber
      split at hnumber
      . exact (Sum.inl.inj hnumber).symm
      . split at hnumber <;> cases hnumber
    show |((n : ℤ) : ℚ)| < _
    rw [Int.cast_natCast, Nat.abs_cast, hn]
    exact hmantissa.trans_le (limit_mono l.length_digits_le)
  . next d hnumber =>
    -- A float has a character more than it has digits, which makes room for the unit of its last
    -- place.
    have hlength := Spelling.length_digits_lt hnumber
    cases hhex : l.isHex with
    | true =>
      obtain ⟨x, hx⟩ := Spelling.exists_exponent_of_isHex hs hhex hnumber
      have hrange := l.inRange x hx
      rw [if_pos hhex] at hrange
      have hd : d = Spelling.binaryFloat l.mantissa l.shift := by
        unfold Spelling.number at hnumber
        rw [if_neg (by simp [hx]), if_pos hhex] at hnumber
        exact (Sum.inr.inj hnumber).symm
      rw [hd]
      exact Spelling.binaryFloat_within hmantissa hrange.2.2 hlength
        (Spelling.length_of_isHex hs hhex hx)
    | false =>
      have hd : d = ⟨l.mantissa, l.places - l.power⟩ := by
        unfold Spelling.number at hnumber
        split at hnumber
        . cases hnumber
        . rw [if_neg (by simp [hhex])] at hnumber
          exact (Sum.inr.inj hnumber).symm
      rw [hd]
      exact (Spelling.decimal_within hs l.inRange hhex).mono hlength

theorem Tree.within_of_eval {e : Tree} {v : Value} (h : e.eval = .ok v) : v.Within e.size := by
  induction e generalizing v with
  | literal l =>
    cases h
    exact l.value_within
  | bool b =>
    cases h
    trivial
  | unary op e ih =>
    obtain ⟨a, ha, happly⟩ := bind_eq_ok.mp h
    exact UnaryOp.within_of_apply (ih ha) happly
  | binary op lhs rhs ihl ihr =>
    obtain ⟨a, ha, h⟩ := bind_eq_ok.mp h
    obtain ⟨b, hb, happly⟩ := bind_eq_ok.mp h
    exact BinaryOp.within_of_apply (ihl ha) (ihr hb) happly

theorem UnaryOp.length_symbol_pos (op : UnaryOp) : 0 < (Lexeme.op op.symbol).chars.length := by
  cases op <;> decide

theorem BinaryOp.length_text_pos (op : BinaryOp)
    : 0 < (Lexeme.op (.binary op)).chars.length := by
  rcases op with (_ | _) | (_ | _ | _ | _ | _ | _) | (_ | _ | _ | _) | (_ | _ | _ | _ | _ | _ | _)
  all_goals decide

theorem Phrase.size_le {level : ℕ} {e : Tree} {ls : List Lexeme} (h : Phrase level e ls)
    : e.size ≤ (ls.map (·.chars.length)).sum := by
  induction h with
  | literal l => simp [Tree.size, Lexeme.chars]
  | bool b => cases b <;> decide
  | unary op _ ih =>
    have := op.length_symbol_pos
    rw [List.map_cons, List.sum_cons, Tree.size]
    omega
  | parens _ ih =>
    simp only [List.cons_append, List.map_cons, List.map_append, List.sum_cons, List.sum_append]
    omega
  | binary op _ _ ihl ihr =>
    have := op.length_text_pos
    rw [List.map_append, List.map_cons, List.sum_append, List.sum_cons, Tree.size]
    omega
  | looser _ _ ih => exact ih

theorem Spelled.sum_length_le {ls : List Lexeme} {cs : List Char} (h : Spelled ls cs)
    : (ls.map (·.chars.length)).sum ≤ cs.length := by
  induction h with
  | nil => exact le_rfl
  | blank _ _ _ ih => exact ih.trans (Nat.le_succ _)
  | lexeme l _ ih =>
    rw [List.map_cons, List.sum_cons, List.length_append]
    exact Nat.add_le_add_left ih _

/--
An integer that is the value of a text has at most 4096 bits for each character of the text.
-/
theorem abs_lt_of_evaluate {text : String} {expected : List Kind} {n : ℤ}
    (h : evaluate text expected = .ok (.int n)) : |n| < 2 ^ (4096 * text.length) := by
  obtain ⟨ts, _, htokens, hvalue, _⟩ := evaluate_eq_ok.mp h
  obtain ⟨ls, hspelled, rfl⟩ := exists_spelled htokens
  obtain ⟨e, hphrase, houtcome⟩ := exists_phrase_of_valueOf hvalue
  obtain ⟨v, heval, hcollapse⟩ := bind_eq_ok.mp houtcome
  have hsize : e.size ≤ text.length := by
    rw [← String.length_toList]
    exact hphrase.size_le.trans hspelled.sum_length_le
  have hwithin := ((Tree.within_of_eval heval).collapse hcollapse).mono hsize
  rw [int_within_iff] at hwithin
  zify at hwithin
  exact hwithin

def Tree.largestShift : Tree :=
  .binary (.bitwise .shl) (.literal (.ofNat 1)) (.literal (.ofNat maxShift))

theorem evaluate_largestShift
    : evaluate "1 << 4096" [] = .ok (.int (2 ^ maxShift)) ∧
      |(2 : ℤ) ^ maxShift| < 2 ^ (4096 * "1 << 4096".length) := by
  have htext : Tree.largestShift.text = "1 << 4096" := by decide
  have hcount : shiftCount maxShift = .ok maxShift := rfl
  have hshift : (BinaryOp.bitwise .shl).apply (.int 1) (.int maxShift)
      = .ok (.int (2 ^ maxShift)) := by
    show (shiftCount maxShift >>= fun count => pure (shiftLeft 1 count)).map Value.int = _
    rw [hcount, ← one_mul ((2 : ℤ) ^ maxShift)]
    rfl
  have heval : Tree.largestShift.eval = .ok (.int (2 ^ maxShift)) :=
    Tree.eval_binary (congrArg _ (Literal.value_ofNat 1))
      (congrArg _ (Literal.value_ofNat maxShift)) hshift
  have houtcome : Tree.largestShift.outcome = .ok (.int (2 ^ maxShift)) := by
    unfold Tree.outcome
    rw [heval]
    rfl
  have hvalue := (evaluate_text htext houtcome).1
  exact ⟨hvalue, abs_lt_of_evaluate hvalue⟩

end Runbook.Calc
