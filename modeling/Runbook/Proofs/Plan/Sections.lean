import Runbook.Plan.Sound
import Runbook.Proofs.Outcome

/-!
This module contains which parts of a plan the check of each section fills in.
-/

namespace Runbook

variable {ω : Type}

namespace Plan

variable {args : List String} {p p' : Plan} {names names' : Names}

theorem eq_of_addCalls {ds : Entries CallDecl} (h : addCalls args p names ds = .ok (p', names'))
    : p' = { p with calls := p'.calls } := by
  induction ds generalizing p names with
  | nil =>
    cases h
    rfl
  | cons d ds ih =>
    obtain ⟨_, _, h⟩ := bind_eq_ok.mp h
    obtain ⟨_, _, h⟩ := bind_eq_ok.mp h
    rw [ih h]

theorem eq_of_addReads {ds : Entries ReadDecl} (h : addReads args p names ds = .ok (p', names'))
    : p' = { p with catalogue := p'.catalogue, reads := p'.reads } := by
  induction ds generalizing p names with
  | nil =>
    cases h
    rfl
  | cons d ds ih =>
    obtain ⟨_, _, h⟩ := bind_eq_ok.mp h
    obtain ⟨_, _, h⟩ := bind_eq_ok.mp h
    rw [ih h]

theorem eq_of_addWrites {sticky : Sticky} {ds : Entries WriteDecl} {t t' : Trace ω}
    (h : (addWrites args p names sticky ds).run t = (.ok (p', names'), t'))
    : p' = { p with catalogue := p'.catalogue, writes := p'.writes } := by
  induction ds generalizing p names sticky t with
  | nil =>
    cases h
    rfl
  | cons d ds ih =>
    obtain ⟨_, _, _, h⟩ := Action.exists_of_run_bind h
    obtain ⟨_, _, _, h⟩ := Action.exists_of_run_bind h
    obtain ⟨_, _, _, h⟩ := Action.exists_of_run_bind h
    rw [ih h]

theorem eq_of_addTargets {ds : Entries (List StepDecl)}
    (h : addTargets p names ds = .ok (p', names')) : p' = { p with targets := p'.targets } := by
  induction ds generalizing p names with
  | nil =>
    cases h
    rfl
  | cons d ds ih =>
    obtain ⟨_, _, h⟩ := bind_eq_ok.mp h
    obtain ⟨_, _, h⟩ := bind_eq_ok.mp h
    rw [ih h]

/--
A plan comes from the checks of the sections of its document, each of which goes on with what those
before it left.
-/
inductive Stages (services : Services ω) (d : Document) (args : List String) (p : Plan) : Prop where
  | intro {config : Config} {url : Option String} {wallets : Wallets} {catalogue : Catalogue}
      {calls reads writes : Plan} {names₁ names₂ names₃ names₄ : Names} {t₁ t₂ t₃ t₄ t₅ : Trace ω}
      (hwallets : (Wallet.ofDecls services.keyring services.shelf (d.wallets.getD [])).run t₁
        = (.ok wallets, t₂))
      (hcatalogue : (Catalogue.ofDecls services.compiler services.shelf
        (d.contracts.getD [])).run t₂ = (.ok catalogue, t₃))
      (hcalls : addCalls args { config, node := url, wallets, catalogue } {} (d.calls.getD [])
        = .ok (calls, names₁))
      (hreads : addReads args calls names₁ (d.reads.getD []) = .ok (reads, names₂))
      (hwrites : (addWrites args reads names₂ {} (d.writes.getD [])).run t₄
        = (.ok (writes, names₃), t₅))
      (htargets : addTargets writes names₃ (d.targets.getD []) = .ok (p, names₄))
      : Stages services d args p

theorem stages_of_ofDocument {services : Services ω} {d : Document} {i : Invocation}
    {t t' : Trace ω} {node : Option (Node ω)}
    (h : (ofDocument services d i).run t = (.ok (p, node), t')) : Stages services d i.args p := by
  unfold ofDocument at h
  obtain ⟨config, _, _, h⟩ := Action.exists_of_run_bind h
  obtain ⟨node', _, _, h⟩ := Action.exists_of_run_bind h
  obtain ⟨_, _, _, h⟩ := Action.exists_of_run_bind h
  obtain ⟨wallets, _, hwallets, h⟩ := Action.exists_of_run_bind h
  obtain ⟨catalogue, _, hcatalogue, h⟩ := Action.exists_of_run_bind h
  obtain ⟨⟨p₁, names₁⟩, _, hcalls, h⟩ := Action.exists_of_run_bind h
  obtain ⟨⟨p₂, names₂⟩, _, hreads, h⟩ := Action.exists_of_run_bind h
  obtain ⟨⟨p₃, names₃⟩, _, hwrites, h⟩ := Action.exists_of_run_bind h
  obtain ⟨⟨p₄, names₄⟩, _, htargets, h⟩ := Action.exists_of_run_bind h
  obtain ⟨_, _, _, h⟩ := Action.exists_of_run_bind h
  obtain ⟨heq, _⟩ := Action.eq_of_run_pure h
  cases heq
  exact .intro hwallets hcatalogue (Action.eq_of_run_ofResult hcalls).1
    (Action.eq_of_run_ofResult hreads).1 hwrites (Action.eq_of_run_ofResult htargets).1

theorem run_ofDocument {services : Services ω} {d : Document} {config : Config} {wallets : Wallets}
    {catalogue : Catalogue} {calls reads writes : Plan} {names₁ names₂ names₃ names₄ : Names}
    {t t₁ t₂ t₃ : Trace ω}
    (hconfig : (Config.ofDecl? d.config).located "CONFIG" "CONFIG" = .ok config)
    (hsections : requireSections d = .ok ())
    (hwallets : (Wallet.ofDecls services.keyring services.shelf (d.wallets.getD [])).run t
      = (.ok wallets, t₁))
    (hcatalogue : (Catalogue.ofDecls services.compiler services.shelf (d.contracts.getD [])).run t₁
      = (.ok catalogue, t₂))
    (hcalls : addCalls [] { config, wallets, catalogue } {} (d.calls.getD []) = .ok (calls, names₁))
    (hreads : addReads [] calls names₁ (d.reads.getD []) = .ok (reads, names₂))
    (hwrites : (addWrites [] reads names₂ {} (d.writes.getD [])).run t₂ = (.ok (writes, names₃), t₃))
    (htargets : addTargets writes names₃ (d.targets.getD []) = .ok (p, names₄))
    : (ofDocument services d {}).run t = (.ok (p, none), t₃) := by
  have hnode : (selectNode services d {}).run t = (.ok none, t) := rfl
  unfold ofDocument
  refine (Action.run_bind_ok (Action.run_ofResult t hconfig)).trans ?_
  refine (Action.run_bind_ok hnode).trans ?_
  refine (Action.run_bind_ok (Action.run_ofResult t hsections)).trans ?_
  refine (Action.run_bind_ok hwallets).trans ?_
  refine (Action.run_bind_ok hcatalogue).trans ?_
  refine (Action.run_bind_ok (Action.run_ofResult t₂ hcalls)).trans ?_
  refine (Action.run_bind_ok (Action.run_ofResult t₂ hreads)).trans ?_
  refine (Action.run_bind_ok hwrites).trans ?_
  refine (Action.run_bind_ok (Action.run_ofResult t₃ htargets)).trans ?_
  rfl

end Plan

end Runbook
