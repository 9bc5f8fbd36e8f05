import Runbook.Entries
import Runbook.Fault

/-!
This module contains the names of commands and targets, which are told apart across all sections.
-/

namespace Runbook

structure Names where
  sections : Entries String := []
deriving Repr

namespace Names

def contains (names : Names) (name : String) : Bool :=
  names.sections.contains name

def claim (names : Names) (place name : String) : Result Names :=
  match names.sections.find? name with
  | some owner =>
    Result.located place name
      (fail .validation ("name '" ++ name ++ "' in " ++ place ++ " is already used in " ++ owner))
  | none => pure ⟨names.sections.set name place⟩

theorem contains_of_claim {names names' : Names} {place name : String}
    (h : names.claim place name = .ok names') :
    names.contains name = false ∧ names'.contains name = true := by
  unfold claim at h
  split at h
  . cases h
  . rename_i hnone
    simp only [pure, Except.pure, Except.ok.injEq] at h
    subst h
    simp [contains, Entries.contains_eq, hnone, Entries.find?_set]

end Names

end Runbook
