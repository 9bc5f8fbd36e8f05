import Runbook.Param.Value
import Runbook.Proofs.Outcome

/-!
This module contains which integers amounts and signed integers are made of.
-/

namespace Runbook

theorem toAmount_eq_ok {n : Int} {m : Nat} : toAmount n = .ok m ↔ n = m ∧ m < 2 ^ 256 := by
  unfold toAmount
  split
  . next hneg =>
    constructor
    . intro h
      cases h
    . rintro ⟨rfl, _⟩
      omega
  . split
    . next hlt =>
      constructor
      . intro h
        cases h
        exact ⟨by omega, hlt⟩
      . rintro ⟨rfl, _⟩
        rfl
    . next hge =>
      constructor
      . intro h
        cases h
      . rintro ⟨rfl, hlt⟩
        exact absurd hlt hge

theorem toSigned_eq_ok {n m : Int} : toSigned n = .ok m ↔ n = m ∧ -2 ^ 255 ≤ m ∧ m < 2 ^ 255 := by
  unfold toSigned
  split
  . next hr =>
    constructor
    . intro h
      cases h
      exact ⟨rfl, hr⟩
    . rintro ⟨rfl, _⟩
      rfl
  . next hr =>
    constructor
    . intro h
      cases h
    . rintro ⟨rfl, h⟩
      exact absurd h hr

theorem onlyFails_toAmount (n : Int) : Result.OnlyFails .resolution (toAmount n) := by
  unfold toAmount
  split
  . exact Result.onlyFails_fail _
  . split
    . exact Result.onlyFails_ok _
    . exact Result.onlyFails_fail _

end Runbook
