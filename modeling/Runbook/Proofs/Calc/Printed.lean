import Runbook.Proofs.Calc.Padding
import Runbook.Proofs.Text.Numeral

/-!
This module contains the values of expressions that are nothing but a printed value: an integer with
its sign, or a truth value.
-/

namespace Runbook.Calc

open Text

def Literal.ofNat (n : Nat) : Literal :=
  .decimal (Nat.toDigits 10 n)
    (List.all_eq_true.mpr fun _ => Nat.isDigit_of_mem_toDigits (by omega) (by omega))
    Nat.toDigits_ne_nil

theorem Literal.chars_ofNat (n : Nat) : (Literal.ofNat n).chars = n.repr.toList := by
  rw [Nat.toList_repr]
  simp [ofNat, decimal, Spelling.chars, Spelling.body]

theorem Literal.value_ofNat (n : Nat) : (Literal.ofNat n).value = .int n := by
  have hnumber : (Literal.ofNat n).number = .inl n := by
    show Sum.inl (digitsValue 10 (Nat.toDigits 10 n ++ [])) = _
    rw [List.append_nil, digitsValue_toDigits]
  unfold value
  rw [hnumber]

/--
The tree that an integer is printed as. A negative one has a sign in front of its literal.
-/
def Tree.ofInt : Int → Tree
  | .ofNat n => .literal (.ofNat n)
  | .negSucc n => .unary .minus (.literal (.ofNat (n + 1)))

def lexemesOfInt : Int → List Lexeme
  | .ofNat n => [.literal (.ofNat n)]
  | .negSucc n => [.op UnaryOp.minus.symbol, .literal (.ofNat (n + 1))]

theorem Tree.outcome_ofInt (n : Int) : (Tree.ofInt n).outcome = .ok (.int n) := by
  cases n with
  | ofNat n =>
    show (Literal.ofNat n).value.collapse = _
    rw [Literal.value_ofNat]
    rfl
  | negSucc n =>
    show (UnaryOp.minus.apply (Literal.ofNat (n + 1)).value >>= Value.collapse) = _
    rw [Literal.value_ofNat]
    rfl

theorem phrase_ofInt (n : Int) : Phrase 1 (.ofInt n) (lexemesOfInt n) := by
  have hlevel : 1 ≤ Tree.operandLevel := by decide
  cases n with
  | ofNat n => exact (Phrase.literal (.ofNat n)).loosen hlevel (Nat.le_refl _)
  | negSucc n =>
    have hphrase := Phrase.unary .minus (.literal (.ofNat (n + 1)))
    exact hphrase.loosen hlevel (Nat.le_refl _)

theorem scan_alone (size : Nat) (l : Lexeme) : scan size l.chars = .ok [l.token] := by
  have hends : Ends [] := by
    intro c hc
    cases hc
  have h := scan_lexeme size l hends
  rw [List.append_nil, scan_nil] at h
  exact h

theorem tokens_toString (n : Int)
    : tokens (toString n) = .ok ((lexemesOfInt n).map Lexeme.token) := by
  have hnat (size n : Nat)
      : scan size n.repr.toList = .ok [(Lexeme.literal (.ofNat n)).token] := by
    rw [← Literal.chars_ofNat]
    exact scan_alone size (.literal (.ofNat n))
  unfold tokens
  cases n with
  | ofNat n => exact hnat _ n
  | negSucc n =>
    -- The digits stand right behind the sign, which no other symbol begins with.
    rw [toString_negSucc, scan_symbol _ rfl, hnat]
    rfl

theorem evaluateInt_toString (n : Int) : evaluateInt (toString n) = .ok n := by
  rw [evaluateInt_eq_ok, evaluate_eq_ok]
  refine ⟨_, ?_, tokens_toString n, ?_, .inl rfl⟩
  . cases n <;> exact List.cons_ne_nil _ _
  . rw [valueOf_phrase (phrase_ofInt n), Tree.outcome_ofInt]

theorem evaluateBool_toString (b : Bool) : evaluateBool (toString b) = .ok b := by
  have htext : (toString b).toList = (Lexeme.bool b).chars := by cases b <;> rfl
  have htokens : tokens (toString b) = .ok [.bool b] := by
    unfold tokens
    rw [htext]
    exact scan_alone _ (.bool b)
  have hvalue : valueOf [.bool b] = .ok (.bool b) := valueOf_operand (readOperand_bool b [])
  have heval : evaluate (toString b) [.boolean] = .ok (.bool b) :=
    evaluate_eq_ok.mpr ⟨_, List.cons_ne_nil _ _, htokens, hvalue, .inr (.head _)⟩
  unfold evaluateBool
  rw [heval]
  rfl

end Runbook.Calc
