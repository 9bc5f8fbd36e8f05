import Mathlib.Data.Int.Bitwise
import Runbook.Proofs.Calc.Evaluation
import Runbook.Proofs.Number.Quotient

/-!
This module contains the numbers that expressions stand for, and the proof that the evaluator gives
these numbers up to the rounding of quotients.
-/

namespace Runbook.Calc

open Number Text

/--
An integer is told from a rational number that happens to be whole, since quotients of integers are
cut off.
-/
inductive Exact where
  | bool (b : Bool)
  | int (n : ℤ)
  | rational (q : ℚ)

namespace Exact

def number? : Exact → Option ℚ
  | bool _ => none
  | int n => some n
  | rational q => some q

def collapse : Exact → Exact
  | rational q => if q.den = 1 then int q.num else rational q
  | x => x

end Exact

def truncate (q : ℚ) : ℤ :=
  if 0 ≤ q then ⌊q⌋ else ⌈q⌉

def Spelling.rational (s : Spelling) : ℚ :=
  if s.isHex then s.mantissa / 16 ^ s.places * (2 : ℚ) ^ s.power
  else s.mantissa / 10 ^ s.places * (10 : ℚ) ^ s.power

def Literal.exact (l : Literal) : Exact :=
  if l.fraction.isNone && l.exponent.isNone then .int l.mantissa else .rational l.rational

def UnaryOp.exactly? : UnaryOp → Exact → Option Exact
  | plus, .int n => some (.int n)
  | plus, .rational q => some (.rational q)
  | minus, .int n => some (.int (-n))
  | minus, .rational q => some (.rational (-q))
  | not, .bool b => some (.bool !b)
  | caret, .int n | tilde, .int n => some (.int (-n - 1))
  | _, _ => none

def Comparison.holds : Comparison → ℚ → ℚ → Bool
  | eq, p, q => p = q
  | ne, p, q => p ≠ q
  | lt, p, q => p < q
  | le, p, q => p ≤ q
  | gt, p, q => q < p
  | ge, p, q => q ≤ p

def Comparison.exactly? : Comparison → Exact → Exact → Option Exact
  | eq, .bool a, .bool b => some (.bool (a == b))
  | ne, .bool a, .bool b => some (.bool (a != b))
  | c, x, y => do return .bool (c.holds (← x.number?) (← y.number?))

def Arithmetic.ofRationals? : Arithmetic → ℚ → ℚ → Option ℚ
  | add, p, q => some (p + q)
  | sub, p, q => some (p - q)
  | mul, p, q => some (p * q)
  | div, p, q => if q = 0 then none else some (p / q)

def Arithmetic.ofInts? : Arithmetic → ℤ → ℤ → Option ℤ
  | add, m, n => some (m + n)
  | sub, m, n => some (m - n)
  | mul, m, n => some (m * n)
  | div, m, n => if n = 0 then none else some (truncate (m / n))

def Arithmetic.exactly? : Arithmetic → Exact → Exact → Option Exact
  | c, .int m, .int n => (c.ofInts? m n).map .int
  | c, x, y => do return .rational (← c.ofRationals? (← x.number?) (← y.number?))

def Bitwise.exactly? : Bitwise → ℤ → ℤ → Option ℤ
  | rem, m, n => if n = 0 then none else some (m - n * truncate (m / n))
  | and, m, n => some (m.land n)
  | or, m, n => some (m.lor n)
  | xor, m, n => some (m.xor n)
  | andNot, m, n => some (m.ldiff n)
  | shl, m, n => if 0 ≤ n then some (m * 2 ^ n.toNat) else none
  | shr, m, n => if 0 ≤ n then some ⌊(m / 2 ^ n.toNat : ℚ)⌋ else none

def BinaryOp.exactly? (op : BinaryOp) (x y : Exact) : Option Exact :=
  match op with
  | connective c =>
    match x, y with
    | .bool a, .bool b => some (.bool (c.apply a b))
    | _, _ => none
  | comparison c => c.exactly? x y
  | arithmetic c => c.exactly? x y
  | bitwise c =>
    match x.collapse, y.collapse with
    | .int m, .int n => (c.exactly? m n).map .int
    | _, _ => none

inductive BinaryOp.Rounds : BinaryOp → Exact → Exact → Prop where
  | same (op : BinaryOp) (x : Exact) : Rounds op x x
  | quotient {p q : ℚ} (h : Number.Rounds p q)
      : Rounds (.arithmetic .div) (.rational p) (.rational q)

namespace Tree

def exactly? : Tree → Option Exact
  | literal l => some l.exact
  | bool b => some (.bool b)
  | unary op e => do op.exactly? (← e.exactly?)
  | binary op lhs rhs => do op.exactly? (← lhs.exactly?) (← rhs.exactly?)

/--
`Rounded e x` holds if the expression comes to `x` with its quotients rounded.
-/
inductive Rounded : Tree → Exact → Prop where
  | literal (l : Literal) : Rounded (.literal l) l.exact
  | bool (b : Bool) : Rounded (.bool b) (.bool b)
  | unary {op : UnaryOp} {e : Tree} {x y : Exact} (h : Rounded e x) (hop : op.exactly? x = some y)
      : Rounded (.unary op e) y
  | binary {op : BinaryOp} {lhs rhs : Tree} {x y z r : Exact} (hl : Rounded lhs x)
      (hr : Rounded rhs y) (hop : op.exactly? x y = some z) (hround : op.Rounds z r)
      : Rounded (.binary op lhs rhs) r

def IsShort : Tree → Prop
  | literal _ | bool _ => True
  | unary _ e => e.IsShort
  | binary op lhs rhs =>
    lhs.IsShort ∧ rhs.IsShort ∧
      (op = .arithmetic .div → ∀ q, (binary op lhs rhs).exactly? = some (.rational q) → Short q)

theorem Rounded.exact {e : Tree} {x : Exact} (h : e.Rounded x) (hshort : e.IsShort)
    : e.exactly? = some x := by
  induction h with
  | literal l => rfl
  | bool b => rfl
  | unary _ hop ih =>
    unfold exactly?
    rw [ih hshort]
    exact hop
  | binary _ _ hop hround ihl ihr =>
    obtain ⟨hl, hr, hquotient⟩ := hshort
    unfold exactly? at hquotient ⊢
    rw [ihl hl, ihr hr] at hquotient ⊢
    cases hround with
    | same => exact hop
    | quotient h =>
      rw [h.eq_of_short (hquotient rfl _ hop)]
      exact hop

end Tree

def Value.exact : Value → Exact
  | bool b => .bool b
  | int n => .int n
  | float d => .rational d.value

theorem Value.number?_exact (v : Value) : v.exact.number? = v.decimal?.map Decimal.value := by
  cases v with
  | int n => exact congrArg some (Decimal.value_ofInt n).symm
  | _ => rfl

theorem Value.eq_int_of_exact {v : Value} {n : ℤ} (h : v.exact = .int n) : v = .int n := by
  cases v <;> cases h
  rfl

theorem Exact.collapse_intCast (n : ℤ) : (Exact.rational n).collapse = .int n := by
  unfold collapse
  dsimp only
  rw [if_pos (Rat.den_intCast n), Rat.num_intCast]

theorem Value.exact_of_collapse {v w : Value} (h : v.collapse = .ok w)
    : v.exact.collapse = w.exact := by
  cases v with
  | float d =>
    unfold collapse at h
    dsimp only at h
    show (Exact.rational d.value).collapse = _
    split at h
    . next hwhole =>
      split at h
      . cases h
      . cases h
        rw [Decimal.value_of_isWhole hwhole]
        exact Exact.collapse_intCast _
    . next hwhole =>
      cases h
      apply if_neg
      intro hden
      apply hwhole
      apply Decimal.isWhole_of_value
      exact ((Rat.den_eq_one_iff _).mp hden).symm
  | _ =>
    cases h
    rfl

theorem UnaryOp.exactly?_of_apply {op : UnaryOp} {v w : Value} (h : op.apply v = .ok w)
    : op.exactly? v.exact = some w.exact := by
  unfold UnaryOp.apply at h
  split at h <;> cases h <;> simp [UnaryOp.exactly?, Value.exact, Decimal.value_neg, bitNot_eq]

theorem Comparison.applyDecimal_eq (c : Comparison) (a b : Decimal)
    : c.applyDecimal a b = c.holds a.value b.value := by
  rw [Bool.eq_iff_iff]
  cases c <;> simp [applyDecimal, holds, Decimal.sameValue_iff, Decimal.lt_iff,
    ← Bool.not_eq_true]

theorem truncate_neg (q : ℚ) : truncate (-q) = -truncate q := by
  unfold truncate
  rcases lt_trichotomy q 0 with h | rfl | h
  . rw [if_pos (by linarith), if_neg (by linarith), Int.floor_neg]
  . simp
  . rw [if_neg (by linarith), if_pos h.le, Int.ceil_neg]

theorem truncate_div (m n : ℤ) : truncate (m / n) = m.tdiv n := by
  have hnat (m n : ℕ) : truncate ((m : ℤ) / (n : ℤ)) = (m : ℤ).tdiv n := by
    unfold truncate
    rw [if_pos (by positivity), Int.cast_natCast n, Rat.floor_intCast_div_natCast,
      Int.tdiv_eq_ediv_of_nonneg (Int.natCast_nonneg m)]
  obtain ⟨m, rfl | rfl⟩ := m.eq_nat_or_neg <;> obtain ⟨n, rfl | rfl⟩ := n.eq_nat_or_neg
  . exact hnat m n
  . rw [Int.cast_neg, div_neg, truncate_neg, Int.tdiv_neg, hnat]
  . rw [Int.cast_neg, neg_div, truncate_neg, Int.neg_tdiv, hnat]
  . rw [Int.cast_neg, Int.cast_neg, neg_div_neg_eq, Int.neg_tdiv_neg, hnat]

theorem clearBits_eq (m n : ℕ) : clearBits m n = Nat.ldiff m n := by
  apply Nat.eq_of_testBit_eq
  intro i
  rw [testBit_clearBits, Nat.testBit_ldiff]

theorem bitAnd_eq (m n : ℤ) : bitAnd m n = m.land n := by
  cases m <;> cases n <;> simp [bitAnd, Int.land, clearBits_eq]

theorem bitOr_eq (m n : ℤ) : bitOr m n = m.lor n := by
  cases m <;> cases n <;> simp [bitOr, Int.lor, clearBits_eq]

theorem bitXor_eq (m n : ℤ) : bitXor m n = m.xor n := by
  cases m <;> cases n <;> rfl

theorem bitAnd_bitNot (m n : ℤ) : bitAnd m (bitNot n) = m.ldiff n := by
  cases m <;> cases n <;> simp [bitAnd, bitNot, Int.ldiff, clearBits_eq]

theorem shiftRight_eq (m : ℤ) (count : ℕ)
    : shiftRight m count = ⌊(m / 2 ^ count : ℚ)⌋ := by
  unfold shiftRight
  have hcast : ((2 : ℚ) ^ count) = ((2 ^ count : ℕ) : ℚ) := by push_cast; rfl
  rw [hcast, Rat.floor_intCast_div_natCast, Int.fdiv_eq_ediv_of_nonneg]
  . push_cast
    rfl
  . positivity

theorem shiftCount_eq_ok {n : ℤ} {count : ℕ} (h : shiftCount n = .ok count)
    : 0 ≤ n ∧ count = n.toNat := by
  unfold shiftCount at h
  split at h
  . cases h
  . split at h
    . cases h
    . cases h
      omega

theorem Bitwise.exactly?_of_apply {c : Bitwise} {m n r : ℤ} (h : c.apply m n = .ok r)
    : c.exactly? m n = some r := by
  have hshift {f : ℕ → ℤ} (h : (do return f (← shiftCount n) : Except Cause ℤ) = .ok r)
      : 0 ≤ n ∧ r = f n.toNat := by
    obtain ⟨count, hcount, h⟩ := bind_eq_ok.mp h
    cases h
    obtain ⟨hle, rfl⟩ := shiftCount_eq_ok hcount
    exact ⟨hle, rfl⟩
  unfold Bitwise.apply at h
  unfold Bitwise.exactly?
  cases c with
  | rem =>
    dsimp only at h ⊢
    split at h
    . cases h
    . next hn =>
      cases h
      rw [if_neg hn, truncate_div, Int.tmod_def]
  | and =>
    cases h
    exact congrArg some (bitAnd_eq m n).symm
  | or =>
    cases h
    exact congrArg some (bitOr_eq m n).symm
  | xor =>
    cases h
    exact congrArg some (bitXor_eq m n).symm
  | andNot =>
    cases h
    exact congrArg some (bitAnd_bitNot m n).symm
  | shl =>
    obtain ⟨hle, rfl⟩ := hshift h
    exact if_pos hle
  | shr =>
    obtain ⟨hle, rfl⟩ := hshift h
    rw [shiftRight_eq]
    exact if_pos hle

theorem Arithmetic.ofInts?_of_applyInt {c : Arithmetic} {m n r : ℤ} (h : c.applyInt m n = .ok r)
    : c.ofInts? m n = some r := by
  unfold applyInt at h
  unfold ofInts?
  cases c with
  | div =>
    dsimp only at h ⊢
    split at h
    . cases h
    . next hn =>
      cases h
      rw [if_neg hn, truncate_div]
  | _ =>
    cases h
    rfl

theorem Arithmetic.ofRationals?_of_applyDecimal {c : Arithmetic} {a b d : Decimal}
    (h : c.applyDecimal a b = .ok d)
    : ∃ q, c.ofRationals? a.value b.value = some q ∧
        (BinaryOp.arithmetic c).Rounds (.rational q) (.rational d.value) := by
  unfold applyDecimal at h
  unfold ofRationals?
  cases c with
  | div =>
    dsimp only at h ⊢
    split at h
    . cases h
    . next hb =>
      cases h
      rw [Decimal.isZero_iff] at hb
      rw [if_neg hb]
      exact ⟨_, rfl, .quotient (Decimal.rounds_div a b hb)⟩
  | add =>
    cases h
    rw [Decimal.value_add]
    exact ⟨_, rfl, .same _ _⟩
  | sub =>
    cases h
    rw [Decimal.value_sub]
    exact ⟨_, rfl, .same _ _⟩
  | mul =>
    cases h
    rw [Decimal.value_mul]
    exact ⟨_, rfl, .same _ _⟩

theorem Comparison.exactly?_of_number? {c : Comparison} {x y : Exact} {p q : ℚ}
    (hx : x.number? = some p) (hy : y.number? = some q)
    : c.exactly? x y = some (.bool (c.holds p q)) := by
  unfold exactly?
  split
  . cases hx
  . cases hx
  . rw [hx, hy]
    rfl

theorem Comparison.exactly?_bool {c : Comparison} {a b r : Bool} (h : c.applyBool? a b = some r)
    : c.exactly? (.bool a) (.bool b) = some (.bool r) := by
  unfold applyBool? at h
  split at h <;> cases h <;> rfl

theorem BinaryOp.exactly?_of_comparison {c : Comparison} {v w u : Value}
    (h : (BinaryOp.comparison c).apply v w = .ok u)
    : c.exactly? v.exact w.exact = some u.exact := by
  unfold apply at h
  dsimp only at h
  split at h
  . split at h
    . next hr =>
      cases h
      exact Comparison.exactly?_bool hr
    . cases h
  . split at h
    . next ha hb =>
      cases h
      rw [Comparison.applyDecimal_eq]
      apply Comparison.exactly?_of_number?
      . rw [Value.number?_exact, ha]
        rfl
      . rw [Value.number?_exact, hb]
        rfl
    . cases h

theorem Arithmetic.exactly?_of_number? {c : Arithmetic} {x y : Exact} {p q : ℚ}
    (hx : x.number? = some p) (hy : y.number? = some q)
    (hints : ∀ m n, x = .int m → y = .int n → False)
    : c.exactly? x y = (c.ofRationals? p q).map .rational := by
  unfold exactly?
  split
  . exact (hints _ _ rfl rfl).elim
  . rw [hx, hy]
    cases h : c.ofRationals? p q <;> simp [h]

theorem BinaryOp.exactly?_of_arithmetic {c : Arithmetic} {v w u : Value}
    (h : (BinaryOp.arithmetic c).apply v w = .ok u)
    : ∃ z, c.exactly? v.exact w.exact = some z ∧ (BinaryOp.arithmetic c).Rounds z u.exact := by
  unfold apply at h
  dsimp only at h
  split at h
  . obtain ⟨r, hr, rfl⟩ := map_eq_ok.mp h
    refine ⟨.int r, ?_, .same _ _⟩
    show (c.ofInts? _ _).map Exact.int = _
    rw [Arithmetic.ofInts?_of_applyInt hr]
    rfl
  . next hints =>
    split at h
    . next ha hb =>
      obtain ⟨d, hd, rfl⟩ := map_eq_ok.mp h
      obtain ⟨q, hq, hrounds⟩ := Arithmetic.ofRationals?_of_applyDecimal hd
      refine ⟨.rational q, ?_, hrounds⟩
      have hx := Value.number?_exact v
      have hy := Value.number?_exact w
      rw [ha] at hx
      rw [hb] at hy
      rw [Arithmetic.exactly?_of_number? hx hy, hq]
      . rfl
      . intro m n hv hw
        exact hints m n (Value.eq_int_of_exact hv) (Value.eq_int_of_exact hw)
    . cases h

theorem BinaryOp.exactly?_of_bitwise {c : Bitwise} {v w u : Value}
    (h : (BinaryOp.bitwise c).apply v w = .ok u)
    : (BinaryOp.bitwise c).exactly? v.exact w.exact = some u.exact := by
  unfold apply at h
  obtain ⟨v', hv, h⟩ := bind_eq_ok.mp h
  obtain ⟨w', hw, h⟩ := bind_eq_ok.mp h
  unfold exactly?
  dsimp only
  rw [Value.exact_of_collapse hv, Value.exact_of_collapse hw]
  split at h
  . obtain ⟨r, hr, rfl⟩ := map_eq_ok.mp h
    dsimp only [Value.exact]
    rw [Bitwise.exactly?_of_apply hr]
    rfl
  . cases h

theorem BinaryOp.exactly?_of_apply {op : BinaryOp} {v w u : Value} (h : op.apply v w = .ok u)
    : ∃ z, op.exactly? v.exact w.exact = some z ∧ op.Rounds z u.exact := by
  cases op with
  | connective c =>
    unfold apply at h
    dsimp only at h
    split at h
    . cases h
      exact ⟨_, rfl, .same _ _⟩
    . cases h
  | comparison c => exact ⟨_, exactly?_of_comparison h, .same _ _⟩
  | arithmetic c => exact exactly?_of_arithmetic h
  | bitwise c => exact ⟨_, exactly?_of_bitwise h, .same _ _⟩

theorem BinaryOp.apply_cases {op : BinaryOp} {a b v : Value} (h : op.apply a b = .ok v)
    : (∃ r, v = .bool r) ∨
      (∃ c m n r, op = .arithmetic c ∧ a = .int m ∧ b = .int n ∧ c.applyInt m n = .ok r ∧
        v = .int r) ∨
      (∃ c x y d, op = .arithmetic c ∧ a.decimal? = some x ∧ b.decimal? = some y ∧
        c.applyDecimal x y = .ok d ∧ v = .float d) ∨
      (∃ c m n r, op = .bitwise c ∧ a.collapse = .ok (.int m) ∧ b.collapse = .ok (.int n) ∧
        c.apply m n = .ok r ∧ v = .int r) := by
  unfold apply at h
  cases op with
  | connective c =>
    dsimp only at h
    split at h
    . cases h
      exact .inl ⟨_, rfl⟩
    . cases h
  | comparison c =>
    dsimp only at h
    split at h
    . split at h
      . cases h
        exact .inl ⟨_, rfl⟩
      . cases h
    . split at h
      . cases h
        exact .inl ⟨_, rfl⟩
      . cases h
  | arithmetic c =>
    dsimp only at h
    split at h
    . obtain ⟨r, hr, rfl⟩ := map_eq_ok.mp h
      exact .inr (.inl ⟨c, _, _, r, rfl, rfl, rfl, hr, rfl⟩)
    . split at h
      . next hx hy =>
        obtain ⟨d, hd, rfl⟩ := map_eq_ok.mp h
        exact .inr (.inr (.inl ⟨c, _, _, d, rfl, hx, hy, hd, rfl⟩))
      . cases h
  | bitwise c =>
    obtain ⟨a', ha, h⟩ := bind_eq_ok.mp h
    obtain ⟨b', hb, h⟩ := bind_eq_ok.mp h
    split at h
    . obtain ⟨r, hr, rfl⟩ := map_eq_ok.mp h
      exact .inr (.inr (.inr ⟨c, _, _, r, rfl, ha, hb, hr, rfl⟩))
    . cases h

end Runbook.Calc
