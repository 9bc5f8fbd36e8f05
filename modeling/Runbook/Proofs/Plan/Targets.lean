import Runbook.Plan.Target
import Runbook.Proofs.Outcome

/-!
This module contains what checking a playbook guarantees about its targets: they have steps, and the
steps run commands of the plan.
-/

namespace Runbook

/--
The step runs a command of the kind that it was checked for. Only writes are deferred.
-/
structure Step.Fits (kind? : String → Option CommandKind) (s : Step) : Prop where
  kind : kind? s.command = some s.kind
  deferred : s.deferred → s.kind = .write

structure Target.Fits (kind? : String → Option CommandKind) (t : Target) : Prop where
  steps_ne_nil : t.steps ≠ []
  steps : ∀ s ∈ t.steps, s.Fits kind?

theorem Step.fits_of_ofDecl {kind? : String → Option CommandKind} {position : Nat} {d : StepDecl}
    {s : Step} (h : Step.ofDecl kind? position d = .ok s) : s.Fits kind? := by
  unfold ofDecl at h
  dsimp only at h
  split at h
  . cases h
  . next kind hkind =>
    split at h
    . cases h
    . next hdeferred =>
      cases h
      refine ⟨hkind, ?_⟩
      intro hd
      by_cases hwrite : kind = .write
      . exact hwrite
      . exact absurd ⟨hd, hwrite⟩ hdeferred

theorem Target.fits_of_stepsOf {kind? : String → Option CommandKind} {position : Nat}
    {ds : List StepDecl} {steps : List Step} (h : Target.stepsOf kind? position ds = .ok steps)
    : ∀ s ∈ steps, s.Fits kind? := by
  induction ds generalizing position steps with
  | nil =>
    cases h
    intro s hs
    cases hs
  | cons d ds ih =>
    obtain ⟨s, hs, h⟩ := bind_eq_ok.mp h
    obtain ⟨rest, hrest, h⟩ := bind_eq_ok.mp h
    cases h
    intro s' hs'
    cases List.mem_cons.mp hs' with
    | inl heq =>
      rw [heq]
      exact Step.fits_of_ofDecl hs
    | inr hmem => exact ih hrest s' hmem

theorem Target.fits_of_ofDecl {kind? : String → Option CommandKind} {name : String}
    {ds : List StepDecl} {t : Target} (h : Target.ofDecl kind? name ds = .ok t) : t.Fits kind? := by
  obtain ⟨steps, hsteps, h⟩ := bind_eq_ok.mp h
  split at h
  . cases h
  . next hne =>
    cases h
    exact ⟨by simpa using hne, fits_of_stepsOf hsteps⟩

end Runbook
