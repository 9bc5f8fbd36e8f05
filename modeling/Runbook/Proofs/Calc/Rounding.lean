import Runbook.Proofs.Calc.Exact
import Runbook.Proofs.Calc.Printed

/-!
This module contains the proof that the value of a text is the number that its expression stands for
with the quotients rounded, and the exact number where no quotient has too many digits.
-/

namespace Runbook.Calc

open Number Text

theorem Spelling.value_binaryFloat (mantissa : ℕ) (shift : ℤ)
    : (binaryFloat mantissa shift).value = mantissa * (2 : ℚ) ^ shift := by
  unfold binaryFloat Decimal.value
  split
  . next h => simp [h]
  . split
    . next h =>
      lift shift to ℕ using h
      simp
    . next h =>
      obtain ⟨count, rfl⟩ : ∃ count : ℕ, shift = -count := ⟨shift.natAbs, by omega⟩
      have hten : (10 : ℚ) ^ count = 2 ^ count * 5 ^ count := by
        rw [← mul_pow]
        norm_num
      simp only [Int.natAbs_neg, Int.natAbs_natCast, zpow_neg, zpow_natCast, hten]
      push_cast
      field_simp

theorem Literal.exact_value (l : Literal) : l.value.exact = l.exact := by
  unfold Literal.value Literal.exact Spelling.number
  split
  . next h =>
    split at h
    . next hint =>
      cases h
      rw [if_pos hint]
      rfl
    . split at h <;> cases h
  . next h =>
    split at h
    . cases h
    . next hint =>
      rw [if_neg hint]
      unfold Spelling.rational
      apply congrArg Exact.rational
      split at h
      . next hhex =>
        cases h
        -- Four binary places make up one of radix sixteen.
        have hpower : (16 : ℚ) ^ l.places = (2 : ℚ) ^ ((4 * l.places : ℕ) : ℤ) := by
          rw [zpow_natCast, pow_mul]
          norm_num
        rw [if_pos hhex, Spelling.value_binaryFloat, Spelling.shift, zpow_sub₀ (by norm_num),
          hpower]
        push_cast
        ring
      . next hhex =>
        cases h
        unfold Decimal.value
        rw [if_neg hhex, neg_sub, zpow_sub₀ (by norm_num), zpow_natCast]
        push_cast
        ring

theorem Tree.rounded_of_eval {e : Tree} {v : Value} (h : e.eval = .ok v) : e.Rounded v.exact := by
  induction e generalizing v with
  | literal l =>
    cases h
    rw [Literal.exact_value]
    exact .literal l
  | bool b =>
    cases h
    exact .bool b
  | unary op e ih =>
    obtain ⟨w, hw, happly⟩ := bind_eq_ok.mp h
    exact .unary (ih hw) (UnaryOp.exactly?_of_apply happly)
  | binary op lhs rhs ihl ihr =>
    obtain ⟨a, ha, h⟩ := bind_eq_ok.mp h
    obtain ⟨b, hb, happly⟩ := bind_eq_ok.mp h
    obtain ⟨z, hz, hrounds⟩ := BinaryOp.exactly?_of_apply happly
    exact .binary (ihl ha) (ihr hb) hz hrounds

def Writes (text : String) (e : Tree) : Prop :=
  ∃ ls, Phrase 1 e ls ∧ Spelled ls text.toList ∧ tokens text = .ok (ls.map Lexeme.token)

section Evaluated

variable {text : String} {expected : List Kind} {v : Value}

theorem exists_writes (h : evaluate text expected = .ok v) : ∃ e, Writes text e := by
  obtain ⟨ts, _, htokens, hvalue, _⟩ := evaluate_eq_ok.mp h
  obtain ⟨ls, hspelled, rfl⟩ := exists_spelled htokens
  obtain ⟨e, hphrase, _⟩ := exists_phrase_of_valueOf hvalue
  exact ⟨e, ls, hphrase, hspelled, htokens⟩

theorem Writes.outcome {e : Tree} (hwrites : Writes text e) (h : evaluate text expected = .ok v)
    : e.outcome = .ok v := by
  obtain ⟨ls, hphrase, _, htokens⟩ := hwrites
  obtain ⟨ts, _, hts, hvalue, _⟩ := evaluate_eq_ok.mp h
  rw [htokens] at hts
  cases hts
  rw [← valueOf_phrase hphrase, hvalue]

/--
The value of a text is the number that its expression stands for with the quotients rounded, and an
integer just if that is whole. Where no quotient has too many digits, it is the exact number.
-/
theorem evaluate_exact (h : evaluate text expected = .ok v)
    : (∃ e, Writes text e) ∧
      ∀ e, Writes text e →
        ∃ x, e.Rounded x ∧ v.exact = x.collapse ∧ (e.IsShort → e.exactly? = some x) := by
  refine ⟨exists_writes h, ?_⟩
  intro e hwrites
  obtain ⟨w, hw, hcollapse⟩ := bind_eq_ok.mp (hwrites.outcome h)
  have hrounded := Tree.rounded_of_eval hw
  exact ⟨w.exact, hrounded, (Value.exact_of_collapse hcollapse).symm, hrounded.exact⟩

end Evaluated

def Literal.scientific (mantissa exponent : ℕ) (hrange : exponent ≤ maxExponent) : Literal where
  hexMark := none
  whole := Nat.toDigits 10 mantissa
  fraction := none
  exponent := some ⟨'e', none, Nat.toDigits 10 exponent⟩
  wellFormed :=
    { hexMark := by simp
      digits := by
        have hdigits (n : ℕ) : ∀ c ∈ Nat.toDigits 10 n, c.isDigit = true :=
          fun _ => isDigit_of_mem_toDigits
        simpa [Spelling.digits, Spelling.isDigit, Spelling.isHex] using hdigits mantissa
      digits_ne_nil := by simp [Spelling.digits, Nat.toDigits_ne_nil]
      mark := by simp [Spelling.isMark, Spelling.isHex]
      sign := by simp
      exponent := by simpa using fun _ => isDigit_of_mem_toDigits
      exponent_ne_nil := by simp [Nat.toDigits_ne_nil]
      fraction := by simp [Spelling.isHex] }
  inRange := by
    simpa [Spelling.InRange, Spelling.isHex, Exponent.magnitude, digitsValue_toDigits] using hrange

theorem Literal.value_scientific {mantissa exponent : ℕ} (hrange : exponent ≤ maxExponent)
    : (scientific mantissa exponent hrange).value = .float ⟨mantissa, -exponent⟩ := by
  simp [scientific, value, Spelling.number, Spelling.isHex, Spelling.mantissa, Spelling.digits,
    Spelling.places, Spelling.power, Exponent.value, Exponent.magnitude, digitsValue_toDigits]

theorem Spaced.spelled {ls : List Lexeme} {cs : List Char} (h : Spaced ls cs) : Spelled ls cs := by
  induction h with
  | nil => exact .nil
  | blank c hc _ ih => exact .blank c hc ih
  | lexeme l _ _ ih => exact .lexeme l ih

theorem evaluate_text {e : Tree} {text : String} {v : Value} (htext : e.text = text)
    (h : e.outcome = .ok v) : evaluate text [] = .ok v ∧ Writes text e := by
  have hphrase : Phrase 1 e (e.print 1) := e.phrase_print (by decide)
  have htokens : tokens text = .ok ((e.print 1).map Lexeme.token) := by
    rw [← htext]
    exact scan_spaced _ e.spaced_text
  constructor
  . rw [evaluate_of_tokens hphrase.ne_nil htokens, valueOf_phrase hphrase, h]
    rfl
  . refine ⟨e.print 1, hphrase, ?_, htokens⟩
    rw [← htext]
    exact e.spaced_text.spelled

theorem Tree.eval_binary {op : BinaryOp} {lhs rhs : Tree} {a b v : Value} (hl : lhs.eval = .ok a)
    (hr : rhs.eval = .ok b) (h : op.apply a b = .ok v) : (Tree.binary op lhs rhs).eval = .ok v := by
  unfold eval
  rw [hl, hr]
  exact h

def Tree.share (a b c : Literal) : Tree :=
  .binary (.arithmetic .mul) (.binary (.arithmetic .div) (.literal a) (.literal b)) (.literal c)

theorem Literal.exact_of_value {l : Literal} {v : Value} (h : l.value = v) : l.exact = v.exact := by
  rw [← h, exact_value]

namespace Tree

variable {a b c : Literal} {x y : Decimal} {n : ℤ} (ha : a.value = .float x)
  (hb : b.value = .int n) (hn : n ≠ 0)

include ha hb hn

theorem outcome_share (hc : c.value = .float y) {q : Decimal} (hq : x.div (.ofInt n) = q)
    : (share a b c).outcome = (Value.float (q.mul y)).collapse := by
  have hdiv : (BinaryOp.arithmetic .div).apply (.float x) (.int n) = .ok (.float q) := by
    have hzero : (Decimal.ofInt n).isZero = false := by
      simpa [Decimal.isZero, Decimal.ofInt] using hn
    show Except.map _ (if (Decimal.ofInt n).isZero then _ else _) = _
    rw [hzero, ← hq]
    rfl
  have hmul : (BinaryOp.arithmetic .mul).apply (.float q) (.float y) = .ok (.float (q.mul y)) := rfl
  have heval : (share a b c).eval = .ok (.float (q.mul y)) := by
    apply eval_binary _ (congrArg _ hc) hmul
    exact eval_binary (congrArg _ ha) (congrArg _ hb) hdiv
  unfold outcome
  rw [heval]
  rfl

theorem exactly?_quotient
    : (binary (.arithmetic .div) (literal a) (literal b)).exactly?
        =
      some (.rational (x.value / n)) := by
  have hcast : (n : ℚ) ≠ 0 := Int.cast_ne_zero.mpr hn
  simp [exactly?, Literal.exact_of_value ha, Literal.exact_of_value hb, BinaryOp.exactly?,
    Arithmetic.exactly?, Arithmetic.ofRationals?, Exact.number?, Value.exact, hcast]

theorem exactly?_share (hc : c.value = .float y)
    : (share a b c).exactly? = some (.rational (x.value / n * y.value)) := by
  unfold share exactly?
  rw [exactly?_quotient ha hb hn]
  simp [exactly?, Literal.exact_of_value hc, BinaryOp.exactly?, Arithmetic.exactly?,
    Arithmetic.ofRationals?, Exact.number?, Value.exact]

theorem isShort_share (c : Literal) (h : Short (x.value / n)) : (share a b c).IsShort := by
  refine ⟨⟨trivial, trivial, ?_⟩, trivial, ?_⟩
  . intro _ q hq
    rw [exactly?_quotient ha hb hn] at hq
    cases hq
    exact h
  . intro h
    cases h

end Tree

theorem divideNat_of_raise {num den num' : ℕ} {scale scale' : ℤ}
    (hraise : Decimal.raise num den scale = (num', scale')) (hdigit : num' / den < 10)
    (hrest : num' % den ≠ 0)
    : Decimal.divideNat num den scale
        =
      let (quotient, scale, rest) :=
        Decimal.longDivide den 99 (num' / den) scale' (10 * (num' % den))
      (if 5 ≤ rest / den then quotient + 1 else quotient, scale) := by
  have hcount : Decimal.digitCount (num' / den) = 1 := by
    rw [Decimal.digitCount, if_pos hdigit]
  unfold Decimal.divideNat
  rw [hraise]
  dsimp only
  rw [if_neg hrest, hcount]
  rfl

theorem div_two : Decimal.div ⟨3, 0⟩ (.ofInt 2) = ⟨15, 1⟩ := by
  have hraise : Decimal.raise 3 2 0 = (3, 0) := by
    rw [Decimal.raise, dif_neg (by decide)]
  show Decimal.mk (_ * _ * ((Decimal.divideNat 3 2 0).1 : ℕ)) (Decimal.divideNat 3 2 0).2 = _
  rw [divideNat_of_raise hraise (by decide) (by decide)]
  decide +kernel

def Tree.twiceThreeHalves : Tree :=
  .share (.scientific 3 0 (by decide)) (.ofNat 2) (.scientific 4 0 (by decide))

theorem evaluate_twiceThreeHalves
    : evaluate "3e0 / 2 * 4e0" [] = .ok (.int 6) ∧ Writes "3e0 / 2 * 4e0" Tree.twiceThreeHalves ∧
      ∃ x, Tree.twiceThreeHalves.Rounded x ∧ x.collapse = .int 6 ∧
        Tree.twiceThreeHalves.exactly? = some x := by
  have houtcome : Tree.twiceThreeHalves.outcome = .ok (.int 6) := by
    unfold Tree.twiceThreeHalves
    rw [Tree.outcome_share (x := ⟨3, 0⟩) (y := ⟨4, 0⟩) (Literal.value_scientific _)
      (Literal.value_ofNat 2) (by decide) (Literal.value_scientific _) div_two]
    decide +kernel
  have htext : Tree.twiceThreeHalves.text = "3e0 / 2 * 4e0" := by decide
  obtain ⟨heval, hwrites⟩ := evaluate_text htext houtcome
  obtain ⟨x, hrounded, hcollapse, hexact⟩ := (evaluate_exact heval).2 _ hwrites
  refine ⟨heval, hwrites, x, hrounded, hcollapse.symm, hexact ?_⟩
  apply Tree.isShort_share (x := ⟨3, 0⟩) (n := 2) (Literal.value_scientific _)
    (Literal.value_ofNat 2) (by decide)
  refine ⟨15, 1, by decide +kernel, ?_⟩
  norm_num [Decimal.value]

theorem div_three : Decimal.div ⟨1, 0⟩ (.ofInt 3) = ⟨(10 ^ 100 - 1) / 3, 100⟩ := by
  have hraise : Decimal.raise 1 3 0 = (10, 1) := by
    rw [Decimal.raise, dif_pos (by decide), Decimal.raise, dif_neg (by decide)]
    rfl
  show Decimal.mk (_ * _ * ((Decimal.divideNat 1 3 0).1 : ℕ)) (Decimal.divideNat 1 3 0).2 = _
  rw [divideNat_of_raise hraise (by decide) (by decide)]
  decide +kernel

def Tree.threeThirds : Tree :=
  .share (.scientific 1 0 (by decide)) (.ofNat 3) (.scientific 3 100 (by decide))

theorem evaluate_threeThirds
    : evaluate "1e0 / 3 * 3e100" [] = .ok (.int (10 ^ 100 - 1)) ∧
      Writes "1e0 / 3 * 3e100" Tree.threeThirds ∧
      Tree.threeThirds.exactly? = some (.rational (10 ^ 100)) ∧
      ¬ ∀ (text : String) (n : ℤ), evaluate text [] = .ok (.int n) →
          ∀ e, Writes text e → ∃ x, e.exactly? = some x ∧ x.collapse = .int n := by
  have houtcome : Tree.threeThirds.outcome = .ok (.int (10 ^ 100 - 1)) := by
    unfold Tree.threeThirds
    rw [Tree.outcome_share (x := ⟨1, 0⟩) (y := ⟨3, -100⟩) (Literal.value_scientific _)
      (Literal.value_ofNat 3) (by decide) (Literal.value_scientific _) div_three]
    decide +kernel
  have htext : Tree.threeThirds.text = "1e0 / 3 * 3e100" := by decide
  obtain ⟨heval, hwrites⟩ := evaluate_text htext houtcome
  have hexact : Tree.threeThirds.exactly? = some (.rational ((10 ^ 100 : ℤ) : ℚ)) := by
    have hshare : Tree.threeThirds.exactly? = _ :=
      Tree.exactly?_share (x := ⟨1, 0⟩) (y := ⟨3, -100⟩) (n := 3) (Literal.value_scientific _)
        (Literal.value_ofNat 3) (by decide) (Literal.value_scientific _)
    rw [hshare]
    norm_num [Decimal.value]
  refine ⟨heval, hwrites, by rw [hexact]; norm_num, ?_⟩
  intro h
  obtain ⟨x, hx, hn⟩ := h _ _ heval _ hwrites
  rw [hexact] at hx
  cases hx
  rw [Exact.collapse_intCast] at hn
  cases hn

end Runbook.Calc
