import Runbook.Proofs.Param.Resolved

/-!
This module contains that a parameter which gets no value when its command runs always fails for the
one reason, whatever it was inside that failed.
-/

namespace Runbook

open Result

variable {scope : Scope}

theorem onlyFails_parseInteger (type : ParamType) (raw : String)
    : OnlyFails .resolution (parseInteger type raw) :=
  (onlyFails_changeKind _).attach _

theorem onlyFails_parseBytes (raw : String) : OnlyFails .resolution (parseBytes raw) := by
  unfold parseBytes
  split
  . split
    . exact onlyFails_ok _
    . exact onlyFails_fail _
  . split
    . exact onlyFails_ok _
    . exact onlyFails_fail _
  . exact onlyFails_ok _

theorem onlyFails_parseParam (type : ParamType) (raw : String)
    : OnlyFails .resolution (parseParam type raw) := by
  cases type with
  | string => exact onlyFails_ok _
  | address =>
    unfold parseParam
    dsimp only
    split
    . exact onlyFails_ok _
    . exact onlyFails_fail _
  | bytes => exact (onlyFails_parseBytes raw).map _
  | bool =>
    have hbool : OnlyFails .resolution (parseBool raw) := (onlyFails_changeKind _).attach _
    exact hbool.map _
  | byte =>
    apply (onlyFails_parseInteger .byte raw).bind
    intro value
    split
    . exact onlyFails_ok _
    . exact onlyFails_fail _
  | int type =>
    apply (onlyFails_parseInteger (.int type) raw).bind
    intro value
    split
    . exact onlyFails_ok _
    . exact onlyFails_fail _

theorem WalletRef.onlyFails_value (wallets : Directory) (sender? : Option Address) (ref : WalletRef)
    : OnlyFails .resolution (ref.value wallets sender?) := by
  unfold value
  split
  . split
    . exact onlyFails_ok _
    . exact onlyFails_fail _
  . split
    . exact onlyFails_ok _
    . exact onlyFails_fail _

theorem Param.onlyFails_value (p : Param) : OnlyFails .resolution (p.value scope) := by
  cases p with
  | literal v => exact onlyFails_ok v
  | wallet ref => exact ref.onlyFails_value scope.wallets scope.sender
  | template text type =>
    unfold value
    dsimp only
    split
    . exact onlyFails_fail _
    . next raw _ =>
      split
      . apply (onlyFails_changeKind _).bind
        intro ref
        exact ref.onlyFails_value scope.wallets scope.sender
      . exact onlyFails_parseParam type raw

theorem Resolution.onlyFails_value (r : Resolution) : OnlyFails .resolution (r.value scope) := by
  cases r with
  | resolved v => exact onlyFails_ok v
  | deferred p reason => exact p.onlyFails_value

theorem Slot.onlyFails_finalize (s : Slot) : OnlyFails .resolution (s.finalize scope) := by
  rw [finalize_eq]
  split
  . exact s.resolution.onlyFails_value
  . exact (onlyFails_changeKind _).bind Resolution.onlyFails_value

end Runbook
