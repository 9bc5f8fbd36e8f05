import Runbook.Proofs.Engine.Supplied
import Runbook.Proofs.Param.Substitution

/-!
This module contains how many arguments a command or target takes: the least number that covers all
indices that it names. The last index has no number of arguments above it that fits a word, and the
count starts over with it.
-/

namespace Runbook

variable {ω : Type}

theorem lt_of_mem_argIndices {template : String} {i : Nat} (h : i ∈ argIndices template)
    : i < indexBound := by
  rw [argIndices_eq] at h
  obtain ⟨digits, _, hindex⟩ := List.mem_filterMap.mp h
  rw [← Piece.place_of_index? hindex]
  apply Piece.place_lt

theorem Slot.lt_of_mem_argIndices {s : Slot} {i : Nat} (h : i ∈ s.argIndices) : i < indexBound := by
  unfold argIndices at h
  split at h
  . next p _ =>
    cases hreference : p.reference with
    | none =>
      rw [hreference] at h
      cases h
    | some text =>
      rw [hreference] at h
      exact Runbook.lt_of_mem_argIndices h
  . cases h

section Commands

variable {i : Nat}

theorem lt_of_mem_params {params : List Slot} (h : i ∈ params.flatMap Slot.argIndices)
    : i < indexBound := by
  obtain ⟨s, _, hs⟩ := List.mem_flatMap.mp h
  exact s.lt_of_mem_argIndices hs

theorem WriteCommand.lt_of_mem_argIndices {c : WriteCommand} (h : i ∈ c.argIndices)
    : i < indexBound := by
  unfold argIndices at h
  rw [List.mem_append, List.mem_append] at h
  rcases h with (hparams | hvalue) | hrecipient
  . exact lt_of_mem_params hparams
  . cases hc : c.value with
    | none =>
      rw [hc] at hvalue
      cases hvalue
    | some text =>
      rw [hc] at hvalue
      exact Runbook.lt_of_mem_argIndices hvalue
  . split at hrecipient
    . exact Runbook.lt_of_mem_argIndices hrecipient
    . cases hrecipient

theorem Plan.lt_of_mem_commandIndices {p : Plan} {name : String}
    (h : i ∈ p.commandIndices name) : i < indexBound := by
  unfold commandIndices at h
  split at h
  . exact lt_of_mem_params h
  . exact lt_of_mem_params h
  . exact WriteCommand.lt_of_mem_argIndices h
  . cases h

theorem Target.lt_of_mem_argIndices {p : Plan} {t : Target}
    (h : i ∈ t.argIndices p.commandIndices) : i < indexBound := by
  obtain ⟨s, _, hs⟩ := List.mem_flatMap.mp h
  unfold Step.argIndices at hs
  split at hs
  . obtain ⟨template, _, htemplate⟩ := List.mem_flatMap.mp hs
    exact Runbook.lt_of_mem_argIndices htemplate
  . exact Plan.lt_of_mem_commandIndices hs

end Commands

namespace Plan

variable {p : Plan} {name : String}

namespace Distinct

end Distinct

end Plan

end Runbook
