import Mathlib.Data.List.Forall2
import Runbook.Entries
import Runbook.Proofs.Outcome

/-!
This module contains computations that are run twice and come to the same up to a relation on their
values: they fail with one fault or succeed with related values, and leave one state behind.
-/

namespace Runbook

/--
Both results are the same fault, or values that `R` relates.
-/
inductive Result.Alike {α β : Type} (R : α → β → Prop) : Result α → Result β → Prop where
  | ok {a : α} {b : β} (h : R a b) : Alike R (.ok a) (.ok b)
  | error (e : Fault) : Alike R (.error e) (.error e)

namespace Result.Alike

variable {α β γ δ : Type} {R : α → β → Prop} {S : γ → δ → Prop}

theorem refl {R : α → α → Prop} (hrefl : ∀ a, R a a) (r : Result α) : Alike R r r := by
  cases r with
  | error e => exact .error e
  | ok a => exact .ok (hrefl a)

theorem bind {r : Result α} {r' : Result β} {f : α → Result γ} {f' : β → Result δ}
    (h : Alike R r r') (hf : ∀ a b, R a b → Alike S (f a) (f' b))
    : Alike S (r >>= f) (r' >>= f') := by
  cases h with
  | error e => exact .error e
  | ok hab => exact hf _ _ hab

theorem bind_same (r : Result α) {f : α → Result γ} {f' : α → Result δ}
    (hf : ∀ a, Alike S (f a) (f' a)) : Alike S (r >>= f) (r >>= f') := by
  cases r with
  | error e => exact .error e
  | ok a => exact hf a

theorem mapError {r : Result α} {r' : Result β} (f : Fault → Fault) (h : Alike R r r')
    : Alike R (r.mapError f) (r'.mapError f) := by
  cases h with
  | error e => exact .error _
  | ok hab => exact .ok hab

end Result.Alike

def Action.Alike {σ α β : Type} (R : α → β → Prop) (a : Action σ α) (a' : Action σ β) : Prop :=
  ∀ s, Result.Alike R (a.run s).1 (a'.run s).1 ∧ (a.run s).2 = (a'.run s).2

namespace Action.Alike

variable {σ α β γ δ : Type} {R : α → β → Prop} {S : γ → δ → Prop}

theorem refl {R : α → α → Prop} (hrefl : ∀ a, R a a) (a : Action σ α) : Alike R a a :=
  fun _ => ⟨.refl hrefl _, rfl⟩

theorem ofResult {r : Result α} {r' : Result β} (h : Result.Alike R r r')
    : Alike R (Action.ofResult r : Action σ α) (Action.ofResult r') :=
  fun _ => ⟨h, rfl⟩

theorem pure {a : α} {b : β} (h : R a b)
    : Alike R (Pure.pure a : Action σ α) (Pure.pure b : Action σ β) :=
  fun _ => ⟨.ok h, rfl⟩

theorem bind {a : Action σ α} {a' : Action σ β} {f : α → Action σ γ} {f' : β → Action σ δ}
    (h : Alike R a a') (hf : ∀ x y, R x y → Alike S (f x) (f' y))
    : Alike S (a >>= f) (a' >>= f') := by
  intro s
  obtain ⟨hresult, hstate⟩ := h s
  cases hrun : a.run s with
  | mk r s₁ =>
    cases hrun' : a'.run s with
    | mk r' s₁' =>
      rw [hrun, hrun'] at hresult hstate
      dsimp only at hresult hstate
      subst hstate
      cases hresult with
      | error e =>
        rw [run_bind_error hrun, run_bind_error hrun']
        exact ⟨.error e, rfl⟩
      | ok hxy =>
        rw [run_bind_ok hrun, run_bind_ok hrun']
        exact hf _ _ hxy s₁

theorem bind_same (a : Action σ α) {f : α → Action σ γ} {f' : α → Action σ δ}
    (hf : ∀ x, Alike S (f x) (f' x)) : Alike S (a >>= f) (a >>= f') := by
  apply bind (refl (R := Eq) (fun _ => rfl) a)
  rintro x _ rfl
  exact hf x

end Action.Alike

def Entries.Alike {α β : Type} (R : α → β → Prop) : Entries α → Entries β → Prop :=
  List.Forall₂ fun e e' => e.1 = e'.1 ∧ R e.2 e'.2

namespace Entries.Alike

variable {α β : Type} {R : α → β → Prop} {es : Entries α} {es' : Entries β}

theorem contains (h : Alike R es es') (name : String) : es.contains name = es'.contains name := by
  induction h with
  | nil => rfl
  | @cons e e' es es' he _ ih =>
    rw [Entries.contains_cons e.1 e.2, Entries.contains_cons e'.1 e'.2, he.1, ih]

theorem set (h : Alike R es es') (name : String) {a : α} {b : β} (hab : R a b)
    : Alike R (es.set name a) (es'.set name b) := by
  induction h with
  | nil => exact .cons ⟨rfl, hab⟩ .nil
  | @cons e e' es es' he hes ih =>
    unfold Entries.set
    rw [he.1]
    split
    . exact .cons ⟨rfl, hab⟩ hes
    . exact .cons ⟨rfl, he.2⟩ ih

end Entries.Alike

end Runbook
