import Runbook.Param.Slot
import Runbook.Proofs.Alike
import Runbook.Proofs.Param.Token

/-!
This module contains the ways in which a declaration is resolved, and what the arguments at hand do
to a parameter while its declaration is checked: they change what is noted down about it, and never
the value that it gets when its command runs.
-/

namespace Runbook

/--
What a declaration with a type is resolved to: its value, the wallet that its reference names, or
the template of a reference to arguments.
-/
inductive TypedParam.Resolves (scope : Scope) (p : TypedParam) (type : ParamType)
    : Resolution → Prop where
  | value {value : Scalar} {r : Resolution} (hvalue : p.value = some value)
      (hreference : p.reference = none) (h : resolveValue scope type value = .ok r)
      : Resolves scope p type r
  | wallet {reference : String} {r : Resolution} (hvalue : p.value = none)
      (hreference : p.reference = some reference)
      (hwallet : isWalletRef (Text.trim reference) = true)
      (h : resolveWalletRef scope (Text.trim reference) = .ok r) : Resolves scope p type r
  | template {reference : String} (hvalue : p.value = none)
      (hreference : p.reference = some reference)
      (hwallet : isWalletRef (Text.trim reference) = false)
      (hindices : (argIndices (Text.trim reference)).isEmpty = false)
      : Resolves scope p type (resolveTemplate scope type (Text.trim reference))

theorem ParamDecl.resolve_typed_eq_ok {scope : Scope} {p : TypedParam} {r : Resolution}
    : (ParamDecl.typed p).resolve scope = .ok r ↔
      ∃ type, ParamType.parse (p.type.getD "") = .ok type ∧ p.Resolves scope type r := by
  unfold resolve
  rw [bind_eq_ok]
  refine exists_congr fun type => and_congr_right fun _ => ?_
  constructor
  . intro h
    split at h
    . cases h
    . cases h
    . next hvalue hreference => exact .value hvalue hreference h
    . next reference hvalue hreference =>
      unfold resolveReference at h
      dsimp only at h
      split at h
      . next hwallet => exact .wallet hvalue hreference hwallet h
      . next hwallet =>
        split at h
        . cases h
        . next hindices =>
          cases h
          exact .template hvalue hreference (Bool.eq_false_iff.mpr hwallet)
            (Bool.eq_false_iff.mpr hindices)
  . intro h
    cases h with
    | value hvalue hreference h =>
      rw [hvalue, hreference]
      exact h
    | wallet hvalue hreference hwallet h =>
      rw [hvalue, hreference]
      dsimp only
      rw [resolveReference, hwallet, if_pos rfl, h]
    | template hvalue hreference hwallet hindices =>
      rw [hvalue, hreference]
      dsimp only
      rw [resolveReference, hwallet, hindices]
      rfl

/--
Both slots come from one declaration and have the same value whenever their command runs.
-/
structure Slot.Alike (s s' : Slot) : Prop where
  decl : s.decl = s'.decl
  finalize : ∀ scope, s.finalize scope = s'.finalize scope

theorem Slot.argIndices_reference {p : TypedParam} {reference : String}
    (hreference : p.reference = some reference) (r : Resolution)
    : (Slot.mk (.typed p) r).argIndices = Runbook.argIndices (Text.trim reference) := by
  rw [argIndices_trim]
  simp [argIndices, hreference]

theorem Slot.Alike.refl (s : Slot) : s.Alike s :=
  ⟨rfl, fun _ => rfl⟩

theorem Slot.alike_of_argIndices {d : ParamDecl} (r r' : Resolution)
    (h : (Slot.mk d r).argIndices.isEmpty = false) : (Slot.mk d r).Alike ⟨d, r'⟩ := by
  have h' : (Slot.mk d r').argIndices.isEmpty = false := h
  refine ⟨rfl, fun scope => ?_⟩
  unfold finalize
  rw [h, h']
  rfl

theorem ParamDecl.resolve_alike (d : ParamDecl) (scope : Scope) (args args' : List String)
    : Result.Alike (fun r r' => (Slot.mk d r).Alike ⟨d, r'⟩) (d.resolve { scope with args })
        (d.resolve { scope with args := args' }) := by
  have hsame (r : Result Resolution)
      : Result.Alike (fun r r' => (Slot.mk d r).Alike ⟨d, r'⟩) r r :=
    .refl (fun r => Slot.Alike.refl ⟨d, r⟩) r
  cases d with
  | plain s => exact hsame _
  | typed p =>
    unfold resolve
    dsimp only
    apply Result.Alike.bind (Result.Alike.refl (R := Eq) (fun _ => rfl) _)
    rintro type _ rfl
    split
    . exact hsame _
    . exact hsame _
    . exact hsame _
    . next reference hvalue hreference =>
      unfold resolveReference
      dsimp only
      split
      . exact hsame _
      . split
        . exact hsame _
        . next hindices =>
          refine .ok (Slot.alike_of_argIndices _ _ ?_)
          rw [Slot.argIndices_reference hreference]
          exact Bool.eq_false_iff.mpr hindices

end Runbook
