import Runbook.Proofs.Plan.Commands
import Runbook.Proofs.Plan.Sections

/-!
This module contains that no token symbol is known to a playbook that has only been checked.
-/

namespace Runbook

variable {ω : Type}

namespace Catalogue

def Silent (c : Catalogue) : Prop :=
  ∀ i ∈ c.instances, i.symbol = none

variable {c c' : Catalogue}

theorem Silent.add {i : Instance} (hc : c.Silent) (hi : i.symbol = none) : (c.add i).2.Silent := by
  intro j hj
  cases List.mem_append.mp hj with
  | inl hmem => exact hc j hmem
  | inr heq =>
    rw [List.mem_singleton.mp heq]
    exact hi

theorem Silent.bind {ref : InstanceRef} {id : Nat} (hc : c.Silent)
    (h : c.bind ref = .ok (id, c')) : c'.Silent := by
  cases ref with
  | named name =>
    unfold Catalogue.bind at h
    dsimp only at h
    split at h
    . cases h
      exact hc
    . cases h
  | inline contract address =>
    unfold Catalogue.bind at h
    dsimp only at h
    split at h
    . cases h
    . obtain ⟨a, _, h⟩ := bind_eq_ok.mp h
      cases h
      exact hc.add rfl

theorem Silent.addInstances {key : String} {ds : List InstanceDecl} (hc : c.Silent)
    (h : addInstances key c ds = .ok c') : c'.Silent := by
  induction ds generalizing c with
  | nil =>
    cases h
    exact hc
  | cons d ds ih =>
    obtain ⟨address, _, h⟩ := bind_eq_ok.mp h
    split at h
    . split at h
      . cases h
      . exact ih (hc.add rfl) h
    . exact ih (hc.add rfl) h

theorem Silent.addDecls {compiler? : Option (Compiler ω)} {shelf : Shelf} {outputs : Outputs}
    {ds : Entries ContractDecl} {t t' : Trace ω} (hc : c.Silent)
    (h : (addDecls compiler? shelf outputs c ds).run t = (.ok c', t')) : c'.Silent := by
  induction ds generalizing c outputs t with
  | nil =>
    cases h
    exact hc
  | cons d ds ih =>
    obtain ⟨⟨build, outputs'⟩, t₁, _, h⟩ := Action.exists_of_run_bind h
    obtain ⟨c₁, t₂, hinstances, h⟩ := Action.exists_of_run_bind h
    have hadded := Result.eq_ok_of_located (Prod.mk.inj hinstances).1
    have hbuilt : Silent { c with builds := c.builds.set d.1 build } := hc
    exact ih (hbuilt.addInstances hadded) h

end Catalogue

variable {ws : Wallets} {args : List String} {name : String} {catalogue bound : Catalogue}

theorem ReadCommand.silent_of_ofDecl {d : ReadDecl} {c : ReadCommand} (hc : catalogue.Silent)
    (h : ofDecl ws args catalogue name d = .ok (c, bound)) : bound.Silent := by
  obtain ⟨_, _, h⟩ := bind_eq_ok.mp h
  split at h
  . cases h
  . obtain ⟨⟨target, bound'⟩, hbind, h⟩ := bind_eq_ok.mp h
    obtain ⟨_, _, h⟩ := bind_eq_ok.mp h
    obtain ⟨_, _, h⟩ := bind_eq_ok.mp h
    cases h
    exact hc.bind hbind

theorem WriteCommand.silent_of_bindTarget {ref? : Option InstanceRef} {target : Option Nat}
    (hc : catalogue.Silent) (h : bindTarget catalogue ref? = .ok (target, bound))
    : bound.Silent := by
  cases ref? with
  | none =>
    cases h
    exact hc
  | some ref =>
    obtain ⟨⟨id, bound'⟩, hbind, h⟩ := bind_eq_ok.mp h
    cases h
    exact hc.bind hbind

theorem WriteCommand.silent_of_ofDecl {d : WriteDecl} {c : WriteCommand} {sticky sticky' : Sticky}
    (hc : catalogue.Silent)
    (h : ofDecl ws args catalogue sticky name d = .ok (c, bound, sticky')) : bound.Silent :=
  silent_of_bindTarget hc (stages_of_ofDecl h).target

namespace Plan

variable {p p' : Plan} {names names' : Names}

theorem silent_of_addReads {ds : Entries ReadDecl} (hp : p.catalogue.Silent)
    (h : addReads args p names ds = .ok (p', names')) : p'.catalogue.Silent := by
  induction ds generalizing p names with
  | nil =>
    cases h
    exact hp
  | cons d ds ih =>
    obtain ⟨_, _, h⟩ := bind_eq_ok.mp h
    obtain ⟨_, hdecl, h⟩ := bind_eq_ok.mp h
    exact ih (ReadCommand.silent_of_ofDecl hp (Result.eq_ok_of_located hdecl)) h

theorem silent_of_addWrites {sticky : Sticky} {ds : Entries WriteDecl} {t t' : Trace ω}
    (hp : p.catalogue.Silent)
    (h : (addWrites args p names sticky ds).run t = (.ok (p', names'), t'))
    : p'.catalogue.Silent := by
  induction ds generalizing p names sticky t with
  | nil =>
    cases h
    exact hp
  | cons d ds ih =>
    obtain ⟨_, _, _, h⟩ := Action.exists_of_run_bind h
    obtain ⟨_, _, hdecl, h⟩ := Action.exists_of_run_bind h
    obtain ⟨_, _, _, h⟩ := Action.exists_of_run_bind h
    exact ih (WriteCommand.silent_of_ofDecl hp
      (Result.eq_ok_of_located (Action.eq_of_run_ofResult hdecl).1)) h

theorem silent_of_ofDocument {services : Services ω} {d : Document} {i : Invocation} {p : Plan}
    {t t' : Trace ω} {node : Option (Node ω)}
    (h : (ofDocument services d i).run t = (.ok (p, node), t')) : p.catalogue.Silent := by
  obtain @⟨_, _, _, _, p₁, _, _, _, _, _, _, _, _, _, _, _, _, hcatalogue, hcalls, hreads, hwrites,
    htargets⟩ := stages_of_ofDocument h
  have hempty : Catalogue.Silent {} := fun _ hi => absurd hi List.not_mem_nil
  have hsilent₁ : p₁.catalogue.Silent := by
    rw [eq_of_addCalls hcalls]
    exact hempty.addDecls hcatalogue
  have hsilent₂ := silent_of_addReads hsilent₁ hreads
  have hsilent₃ := silent_of_addWrites hsilent₂ hwrites
  rw [eq_of_addTargets htargets]
  exact hsilent₃

end Plan

end Runbook
