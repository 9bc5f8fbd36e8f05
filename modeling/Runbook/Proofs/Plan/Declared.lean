import Runbook.Proofs.Plan.Commands
import Runbook.Proofs.Plan.Sections

/-!
This module contains where the commands of a plan come from: each of them is what a declaration
under its name was checked to be.
-/

namespace Runbook

variable {ω : Type}

theorem Entries.find?_set_cases {α : Type} {es : Entries α} {name name' : String} {v v' : α}
    (h : (es.set name v).find? name' = some v')
    : (name' = name ∧ v' = v) ∨ es.find? name' = some v' := by
  induction es with
  | nil =>
    rw [set, find?_cons] at h
    split at h
    . next hname => exact .inl ⟨hname, (Option.some.inj h).symm⟩
    . cases h
  | cons e es ih =>
    obtain ⟨n, w⟩ := e
    rw [find?_cons]
    unfold set at h
    split at h
    . next hn =>
      rw [find?_cons] at h
      split at h
      . next hname => exact .inl ⟨hname.trans hn, (Option.some.inj h).symm⟩
      . next hname =>
        rw [if_neg hname]
        exact .inr h
    . rw [find?_cons] at h
      split at h
      . next hname =>
        rw [if_pos hname]
        exact .inr h
      . next hname =>
        rw [if_neg hname]
        exact ih h

theorem Wallet.names_of_ofDecls {keyring : Keyring ω} {shelf : Shelf} {ds : Entries WalletDecl}
    {ws : Wallets} {t t' : Trace ω} (h : (ofDecls keyring shelf ds).run t = (.ok ws, t'))
    : Entries.names ws = Entries.names ds := by
  unfold ofDecls at h
  induction ds generalizing t ws with
  | nil =>
    obtain ⟨rfl, _⟩ := Action.eq_of_run_pure h
    rfl
  | cons d ds ih =>
    rw [List.mapM_cons] at h
    obtain ⟨e, t₁, hfirst, h⟩ := Action.exists_of_run_bind h
    obtain ⟨es, t₂, hrest, h⟩ := Action.exists_of_run_bind h
    obtain ⟨rfl, rfl⟩ := Action.eq_of_run_pure h
    obtain ⟨w, t₃, _, hfirst⟩ := Action.exists_of_run_bind hfirst
    obtain ⟨rfl, _⟩ := Action.eq_of_run_pure hfirst
    exact congrArg (d.1 :: ·) (ih hrest)

namespace Plan

variable {args : List String} {p p' : Plan} {names names' : Names} {name : String}

theorem declared_of_addCalls {ds : Entries CallDecl} {c : CallCommand}
    (h : addCalls args p names ds = .ok (p', names')) (hc : p'.calls.find? name = some c)
    : p.calls.find? name = some c ∨
      ∃ d, (name, d) ∈ ds ∧ CallCommand.ofDecl p.wallets args name d = .ok c := by
  induction ds generalizing p names with
  | nil =>
    cases h
    exact .inl hc
  | cons d ds ih =>
    obtain ⟨names₁, _, h⟩ := bind_eq_ok.mp h
    obtain ⟨c₁, hdecl, h⟩ := bind_eq_ok.mp h
    rcases ih h with hfind | ⟨d', hmem, hdecl'⟩
    . rcases Entries.find?_set_cases hfind with ⟨rfl, rfl⟩ | hbefore
      . exact .inr ⟨d.2, List.mem_cons_self .., Result.eq_ok_of_located hdecl⟩
      . exact .inl hbefore
    . exact .inr ⟨d', List.mem_cons_of_mem _ hmem, hdecl'⟩

theorem declared_of_addReads {ds : Entries ReadDecl} {c : ReadCommand}
    (h : addReads args p names ds = .ok (p', names')) (hc : p'.reads.find? name = some c)
    : p.reads.find? name = some c ∨
      ∃ d catalogue bound, (name, d) ∈ ds ∧
        ReadCommand.ofDecl p.wallets args catalogue name d = .ok (c, bound) := by
  induction ds generalizing p names with
  | nil =>
    cases h
    exact .inl hc
  | cons d ds ih =>
    obtain ⟨names₁, _, h⟩ := bind_eq_ok.mp h
    obtain ⟨⟨c₁, bound⟩, hdecl, h⟩ := bind_eq_ok.mp h
    rcases ih h with hfind | ⟨d', catalogue, bound', hmem, hdecl'⟩
    . rcases Entries.find?_set_cases hfind with ⟨rfl, rfl⟩ | hbefore
      . exact .inr ⟨d.2, _, bound, List.mem_cons_self .., Result.eq_ok_of_located hdecl⟩
      . exact .inl hbefore
    . exact .inr ⟨d', catalogue, bound', List.mem_cons_of_mem _ hmem, hdecl'⟩

theorem declared_of_addWrites {sticky : Sticky} {ds : Entries WriteDecl} {t t' : Trace ω}
    {c : WriteCommand} (h : (addWrites args p names sticky ds).run t = (.ok (p', names'), t'))
    (hc : p'.writes.find? name = some c)
    : p.writes.find? name = some c ∨
      ∃ d catalogue sticky bound, (name, d) ∈ ds ∧
        WriteCommand.ofDecl p.wallets args catalogue sticky name d = .ok (c, bound) := by
  induction ds generalizing p names sticky t with
  | nil =>
    cases h
    exact .inl hc
  | cons d ds ih =>
    obtain ⟨names₁, _, _, h⟩ := Action.exists_of_run_bind h
    obtain ⟨⟨c₁, bound⟩, _, hdecl, h⟩ := Action.exists_of_run_bind h
    obtain ⟨_, _, _, h⟩ := Action.exists_of_run_bind h
    replace hdecl := Result.eq_ok_of_located (Action.eq_of_run_ofResult hdecl).1
    rcases ih h with hfind | ⟨d', catalogue, sticky', bound', hmem, hdecl'⟩
    . rcases Entries.find?_set_cases hfind with ⟨rfl, rfl⟩ | hbefore
      . exact .inr ⟨d.2, _, _, bound, List.mem_cons_self .., hdecl⟩
      . exact .inl hbefore
    . exact .inr ⟨d', catalogue, sticky', bound', List.mem_cons_of_mem _ hmem, hdecl'⟩

/--
The commands of a plan are those that its document declares, and so are its wallets.
-/
structure Declared (d : Document) (p : Plan) : Prop where
  wallets : Entries.names p.wallets = Entries.names (d.wallets.getD [])
  calls : ∀ name c, p.calls.find? name = some c → ∃ decl args,
    (name, decl) ∈ d.calls.getD [] ∧ CallCommand.ofDecl p.wallets args name decl = .ok c
  reads : ∀ name c, p.reads.find? name = some c → ∃ decl args catalogue bound,
    (name, decl) ∈ d.reads.getD [] ∧
      ReadCommand.ofDecl p.wallets args catalogue name decl = .ok (c, bound)
  writes : ∀ name c, p.writes.find? name = some c → ∃ decl args catalogue sticky bound,
    (name, decl) ∈ d.writes.getD [] ∧
      WriteCommand.ofDecl p.wallets args catalogue sticky name decl = .ok (c, bound)

theorem declared_of_ofDocument {services : Services ω} {d : Document} {i : Invocation}
    {t t' : Trace ω} {node : Option (Node ω)}
    (h : (ofDocument services d i).run t = (.ok (p, node), t')) : p.Declared d := by
  obtain ⟨hwallets, _, hcalls, hreads, hwrites, htargets⟩ := stages_of_ofDocument h
  have hp₁ := eq_of_addCalls hcalls
  have hp₂ := eq_of_addReads hreads
  have hp₃ := eq_of_addWrites hwrites
  have hp₄ := eq_of_addTargets htargets
  refine ⟨?_, fun name c hc => ?_, fun name c hc => ?_, fun name c hc => ?_⟩
  . rw [hp₄, hp₃, hp₂, hp₁]
    exact Wallet.names_of_ofDecls hwallets
  . rw [hp₄, hp₃, hp₂] at hc
    rcases declared_of_addCalls hcalls hc with hnone | ⟨decl, hmem, hdecl⟩
    . cases hnone
    . refine ⟨decl, i.args, hmem, ?_⟩
      rw [hp₄, hp₃, hp₂, hp₁]
      exact hdecl
  . rw [hp₄, hp₃] at hc
    rcases declared_of_addReads hreads hc with hnone | ⟨decl, catalogue, bound, hmem, hdecl⟩
    . rw [hp₁] at hnone
      cases hnone
    . refine ⟨decl, i.args, catalogue, bound, hmem, ?_⟩
      rw [hp₄, hp₃, hp₂]
      exact hdecl
  . rw [hp₄] at hc
    rcases declared_of_addWrites hwrites hc with
      hnone | ⟨decl, catalogue, sticky, bound, hmem, hdecl⟩
    . rw [hp₂, hp₁] at hnone
      cases hnone
    . refine ⟨decl, i.args, catalogue, sticky, bound, hmem, ?_⟩
      rw [hp₄, hp₃]
      exact hdecl

end Plan

namespace Plan

variable {p : Plan} {d : Document}

end Plan

def Wallets.Values (ws : Wallets) (text : String) : Prop :=
  ∀ name field, (name, field) ∈ walletTokens text →
    field = "balance" ∧ ∃ w, Entries.find? ws name = some w

theorem forM_eq_ok {α : Type} {f : α → Result Unit} {xs : List α}
    : xs.forM f = .ok () ↔ ∀ x ∈ xs, f x = .ok () := by
  induction xs with
  | nil => exact iff_of_true rfl fun x hx => absurd hx List.not_mem_nil
  | cons x xs ih =>
    rw [List.forall_mem_cons, ← ih]
    show (f x >>= fun _ => xs.forM f) = .ok () ↔ _
    rw [bind_eq_ok]
    exact ⟨fun ⟨_, hx, hxs⟩ => ⟨hx, hxs⟩, fun ⟨hx, hxs⟩ => ⟨(), hx, hxs⟩⟩

theorem Wallets.values_iff {ws : Wallets} {text : String}
    : checkValueReferences ws.directory text = .ok () ↔ ws.Values text := by
  unfold checkValueReferences Values
  rw [forM_eq_ok, Prod.forall]
  refine forall₃_congr fun name field _ => ?_
  have hcontains : ws.directory.contains name = (Entries.find? ws name).isSome :=
    Entries.contains_eq ws name
  dsimp only
  rw [hcontains, ← Option.isSome_iff_exists]
  split
  . next hfield => exact iff_of_false (by rintro ⟨⟩) fun h => hfield h.1
  . next hfield =>
    cases hfind : Entries.find? ws name with
    | none => exact iff_of_false (by rintro ⟨⟩) (by rintro ⟨_, ⟨⟩⟩)
    | some w => exact iff_of_true rfl ⟨not_not.mp hfield, rfl⟩

namespace Plan

variable {p : Plan} {d : Document}

def Valuing (p : Plan) : Prop :=
  ∀ name c text, p.writes.find? name = some c → c.value = some text → p.wallets.Values text

theorem Declared.valuing (h : p.Declared d) : p.Valuing := by
  intro name c text hc hvalue
  obtain ⟨decl, args, catalogue, sticky, bound, _, hdecl⟩ := h.writes name c hc
  exact Wallets.values_iff.mp ((WriteCommand.stages_of_ofDecl hdecl).value text hvalue)

end Plan

end Runbook
