import Runbook.Node.Trace

/-!
This module contains facts on computations that can fail: when they succeed, and what they leave
behind.
-/

namespace Runbook

theorem bind_eq_ok {ε α β : Type} {x : Except ε α} {f : α → Except ε β} {b : β}
    : x >>= f = .ok b ↔ ∃ a, x = .ok a ∧ f a = .ok b := by
  cases x with
  | error e => simp [bind, Except.bind]
  | ok a => simp [bind, Except.bind]

theorem map_eq_ok {ε α β : Type} {x : Except ε α} {f : α → β} {b : β}
    : x.map f = .ok b ↔ ∃ a, x = .ok a ∧ f a = b := by
  cases x with
  | error e => simp [Except.map]
  | ok a => simp [Except.map]

namespace Result

variable {α β : Type} {kind : FaultKind} {r : Result α}

def OnlyFails (kind : FaultKind) (r : Result α) : Prop :=
  ∀ e, r = .error e → e.kind = kind

theorem eq_ok_of_changeKind {κ : Type} {r : Except (Report κ) α} {x : α}
    (h : changeKind kind r = .ok x) : r = .ok x := by
  cases r with
  | error e => cases h
  | ok y =>
    cases h
    rfl

theorem attach_eq_ok {note : String} {x : α} : r.attach note = .ok x ↔ r = .ok x := by
  cases r with
  | error e => exact iff_of_false (by intro h; cases h) (by intro h; cases h)
  | ok y => exact Iff.rfl

theorem eq_ok_of_located {place entry : String} {x : α} (h : r.located place entry = .ok x)
    : r = .ok x := by
  cases r with
  | error e => cases h
  | ok y =>
    cases h
    rfl

theorem onlyFails_ok (x : α) : OnlyFails kind (.ok x) := by
  intro e h
  cases h

theorem onlyFails_fail (note : String) : OnlyFails kind (fail kind note : Result α) := by
  intro e h
  cases h
  rfl

theorem onlyFails_changeKind {κ : Type} (r : Except (Report κ) α)
    : OnlyFails kind (changeKind kind r) := by
  intro e h
  cases r with
  | error e' =>
    cases h
    rfl
  | ok x => cases h

theorem OnlyFails.map (f : α → β) (h : OnlyFails kind r) : OnlyFails kind (r.map f) := by
  intro e he
  cases r with
  | error e' =>
    cases he
    exact h _ rfl
  | ok x => cases he

theorem OnlyFails.attach (note : String) (h : OnlyFails kind r) :
    OnlyFails kind (r.attach note) := by
  intro e he
  cases r with
  | error e' =>
    cases he
    exact h e' rfl
  | ok x => cases he

theorem OnlyFails.bind {f : α → Result β} (h : OnlyFails kind r)
    (hf : ∀ x, OnlyFails kind (f x)) : OnlyFails kind (r >>= f) := by
  intro e he
  cases r with
  | error e' =>
    cases he
    exact h _ rfl
  | ok x => exact hf x e he

theorem OnlyFails.mapM {f : α → Result β} (hf : ∀ x, OnlyFails kind (f x)) (xs : List α)
    : OnlyFails kind (xs.mapM f) := by
  induction xs with
  | nil => exact onlyFails_ok _
  | cons x xs ih =>
    rw [List.mapM_cons]
    apply (hf x).bind
    intro y
    apply ih.bind
    intro ys
    exact onlyFails_ok _

end Result

namespace Action

variable {σ α β : Type}

theorem run_bind_ok {a : Action σ α} {f : α → Action σ β} {s s' : σ} {x : α}
    (h : a.run s = (.ok x, s')) : (a >>= f).run s = (f x).run s' := by
  simp only [ExceptT.run] at h
  simp only [bind, ExceptT.bind, ExceptT.run, ExceptT.mk, StateT.bind, h, ExceptT.bindCont]

theorem run_bind_error {a : Action σ α} {f : α → Action σ β} {s s' : σ} {e : Fault}
    (h : a.run s = (.error e, s')) : (a >>= f).run s = (.error e, s') := by
  simp only [ExceptT.run] at h
  simp only [bind, ExceptT.bind, ExceptT.run, ExceptT.mk, StateT.bind, h, ExceptT.bindCont]
  rfl

theorem run_fail_ne_ok {kind : FaultKind} {text : String} {s s' : σ} {x : α}
    : (Action.fail kind text : Action σ α).run s ≠ (.ok x, s') := by
  intro h
  cases h

theorem eq_of_run_pure {x y : α} {s s' : σ} (h : (pure x : Action σ α).run s = (.ok y, s'))
    : x = y ∧ s = s' := by
  cases h
  exact ⟨rfl, rfl⟩

theorem run_ofResult {r : Result α} {x : α} (s : σ) (h : r = .ok x)
    : (Action.ofResult r : Action σ α).run s = (.ok x, s) := by
  rw [h]
  rfl

theorem eq_of_run_ofResult {r : Result α} {s s' : σ} {x : α}
    (h : (Action.ofResult r : Action σ α).run s = (.ok x, s')) : r = .ok x ∧ s = s' :=
  Prod.mk.inj h

theorem run_get (s : σ) : (get : Action σ σ).run s = (.ok s, s) := rfl

theorem get_apply (s : σ) : (get : StateM σ σ) s = (s, s) := rfl

theorem run_perform (a : StateM σ α) (s : σ)
    : (perform a).run s = (.ok (a s).1, (a s).2) := rfl

theorem eq_of_run_perform {a : StateM σ α} {s s' : σ} {x : α}
    (h : (perform a).run s = (.ok x, s')) : a s = (x, s') := by
  rw [run_perform] at h
  obtain ⟨hx, rfl⟩ := Prod.mk.inj h
  exact Prod.ext (Except.ok.inj hx) rfl

theorem eq_of_run_mapError {a : Action σ α} {f : Fault → Fault} {s s' : σ} {x : α}
    (h : (a.mapError f).run s = (.ok x, s')) : a.run s = (.ok x, s') := by
  have hrun : (a.mapError f).run s = ((a.run s).1.mapError f, (a.run s).2) := rfl
  rw [hrun] at h
  obtain ⟨hx, rfl⟩ := Prod.mk.inj h
  cases hresult : (a.run s).1 with
  | error e =>
    rw [hresult] at hx
    cases hx
  | ok y =>
    rw [hresult] at hx
    cases hx
    exact Prod.ext hresult rfl

theorem run_bind_cases (a : Action σ α) (f : α → Action σ β) (s : σ)
    : (∃ e s', a.run s = (.error e, s') ∧ (a >>= f).run s = (.error e, s')) ∨
      (∃ x s', a.run s = (.ok x, s') ∧ (a >>= f).run s = (f x).run s') := by
  cases h : a.run s with
  | mk r s' =>
    cases r with
    | error e => exact .inl ⟨e, s', rfl, run_bind_error h⟩
    | ok x => exact .inr ⟨x, s', rfl, run_bind_ok h⟩

theorem run_bind_congr {a : Action σ α} {f g : α → Action σ β} {s : σ}
    (h : ∀ x s', a.run s = (.ok x, s') → (f x).run s' = (g x).run s')
    : (a >>= f).run s = (a >>= g).run s := by
  rcases run_bind_cases a f s with ⟨e, s', ha, hbind⟩ | ⟨x, s', ha, hbind⟩
  . rw [hbind, run_bind_error ha]
  . rw [hbind, run_bind_ok ha, h x s' ha]

theorem run_bind_of_run_eq {a b : Action σ α} (f : α → Action σ β) {s : σ} (h : a.run s = b.run s)
    : (a >>= f).run s = (b >>= f).run s := by
  rcases run_bind_cases a f s with ⟨e, s', ha, hbind⟩ | ⟨x, s', ha, hbind⟩
  . rw [hbind, run_bind_error (h.symm.trans ha)]
  . rw [hbind, run_bind_ok (h.symm.trans ha)]

theorem exists_of_run_bind {a : Action σ α} {f : α → Action σ β} {s s'' : σ} {y : β}
    (h : (a >>= f).run s = (.ok y, s''))
    : ∃ x s', a.run s = (.ok x, s') ∧ (f x).run s' = (.ok y, s'') := by
  rcases run_bind_cases a f s with ⟨e, s', _, hbind⟩ | ⟨x, s', hx, hbind⟩
  . rw [hbind] at h
    cases h
  . rw [hbind] at h
    exact ⟨x, s', hx, h⟩

end Action

end Runbook
