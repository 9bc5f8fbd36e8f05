import Runbook.Proofs.Plan.Commands
import Runbook.Proofs.Plan.Sections
import Runbook.Proofs.Plan.Targets

/-!
This module contains what a sound playbook is: each section of the plan has one entry for each entry
of the document, all names are told apart, and everything that an entry refers to is there.
-/

namespace Runbook

variable {ω : Type}

def Entries.Each {α β : Type} (R : String → α → β → Prop) : Entries α → Entries β → Prop :=
  List.Forall₂ fun e e' => e.1 = e'.1 ∧ R e'.1 e.2 e'.2

namespace Entries.Each

variable {α β : Type} {R S : String → α → β → Prop} {es : Entries α} {es' : Entries β}

theorem mono (himp : ∀ n a b, R n a b → S n a b) (h : Each R es es') : Each S es es' :=
  List.Forall₂.imp (fun _ _ he => ⟨he.1, himp _ _ _ he.2⟩) h

theorem find? (h : Each R es es') {name : String} {b : β} (hb : es'.find? name = some b)
    : ∃ a, es.find? name = some a ∧ R name a b := by
  induction h with
  | nil => cases hb
  | @cons e e' es es' he _ ih =>
    obtain ⟨n, a⟩ := e
    obtain ⟨n', b'⟩ := e'
    obtain ⟨hn, hR⟩ := he
    dsimp only at hn hR
    subst hn
    rw [Entries.find?_cons] at hb ⊢
    split
    . next heq =>
      rw [if_pos heq] at hb
      cases hb
      exact ⟨a, rfl, heq ▸ hR⟩
    . next hne =>
      rw [if_neg hne] at hb
      exact ih hb

end Entries.Each

structure Target.Checked (kind? : String → Option CommandKind) (name : String)
    (_ : List StepDecl) (t : Target) : Prop where
  named : t.name = name
  fits : t.Fits kind?

theorem Target.checked_of_ofDecl {kind? : String → Option CommandKind} {name : String}
    {ds : List StepDecl} {t : Target} (h : Target.ofDecl kind? name ds = .ok t)
    : t.Checked kind? name ds := by
  refine ⟨?_, fits_of_ofDecl h⟩
  obtain ⟨steps, _, h⟩ := bind_eq_ok.mp h
  split at h
  . cases h
  . cases h
    rfl

namespace Plan

section Walks

variable {args : List String} {p p' : Plan} {names names' : Names}

theorem checked_of_addCalls {ds : Entries CallDecl} (hp : p.Claims names)
    (h : addCalls args p names ds = .ok (p', names'))
    : p'.Claims names' ∧
      ∃ new, p'.calls = p.calls ++ new ∧ Entries.Each (CallCommand.Checked p.wallets) ds new := by
  induction ds generalizing p names with
  | nil =>
    cases h
    exact ⟨hp, [], (List.append_nil _).symm, .nil⟩
  | cons d ds ih =>
    obtain ⟨names₁, hclaim, h⟩ := bind_eq_ok.mp h
    obtain ⟨c, hdecl, h⟩ := bind_eq_ok.mp h
    have hfresh : d.1 ∉ Entries.names p.calls := fun hmem =>
      hp.not_mem hclaim (by simp [Plan.names, hmem])
    have hperm := Entries.names_set_perm c hfresh
    have hp₁ : Claims { p with calls := p.calls.set d.1 c } names₁ :=
      hp.insert hclaim (((hperm.append_right _).append_right _).append_right _)
    obtain ⟨hp', new, hcalls, hnew⟩ := ih hp₁ h
    refine ⟨hp', (d.1, c) :: new, ?_, ?_⟩
    . rw [hcalls, Entries.set_of_not_mem c hfresh, List.append_assoc, List.singleton_append]
    . exact .cons ⟨rfl, CallCommand.checked_of_ofDecl (Result.eq_ok_of_located hdecl)⟩ hnew

theorem checked_of_addReads {ds : Entries ReadDecl} (hp : p.Claims names)
    (hcatalogue : p.catalogue.Sound) (h : addReads args p names ds = .ok (p', names'))
    : p'.Claims names' ∧ p'.catalogue.Sound ∧ p.catalogue.Grows p'.catalogue ∧
      ∃ new, p'.reads = p.reads ++ new ∧
        Entries.Each (ReadCommand.Checked p.wallets p'.catalogue) ds new := by
  induction ds generalizing p names with
  | nil =>
    cases h
    exact ⟨hp, hcatalogue, .refl _, [], (List.append_nil _).symm, .nil⟩
  | cons d ds ih =>
    obtain ⟨names₁, hclaim, h⟩ := bind_eq_ok.mp h
    obtain ⟨⟨c, catalogue⟩, hdecl, h⟩ := bind_eq_ok.mp h
    have hfresh : d.1 ∉ Entries.names p.reads := fun hmem =>
      hp.not_mem hclaim (by simp [Plan.names, hmem])
    have hperm := perm_cons_append p.calls.names (Entries.names_set_perm c hfresh)
    have hp₁ : Claims { p with catalogue, reads := p.reads.set d.1 c } names₁ :=
      hp.insert hclaim ((hperm.append_right _).append_right _)
    obtain ⟨hc, hsound, hgrows⟩ :=
      ReadCommand.checked_of_ofDecl hcatalogue (Result.eq_ok_of_located hdecl)
    obtain ⟨hp', hsound', hgrows', new, hreads, hnew⟩ := ih hp₁ hsound h
    refine ⟨hp', hsound', hgrows.trans hgrows', (d.1, c) :: new, ?_, ?_⟩
    . rw [hreads, Entries.set_of_not_mem c hfresh, List.append_assoc, List.singleton_append]
    . exact .cons ⟨rfl, hc.grows hgrows'⟩ hnew

theorem checked_of_addWrites {sticky : Sticky} {ds : Entries WriteDecl} {t t' : Trace ω}
    (hp : p.Claims names) (hcatalogue : p.catalogue.Sound)
    (h : (addWrites args p names sticky ds).run t = (.ok (p', names'), t'))
    : p'.Claims names' ∧ p'.catalogue.Sound ∧ p.catalogue.Grows p'.catalogue ∧
      ∃ new, p'.writes = p.writes ++ new ∧
        Entries.Each (WriteCommand.Checked p.wallets p'.catalogue) ds new := by
  induction ds generalizing p names sticky t with
  | nil =>
    cases h
    exact ⟨hp, hcatalogue, .refl _, [], (List.append_nil _).symm, .nil⟩
  | cons d ds ih =>
    obtain ⟨names₁, _, hclaim, h⟩ := Action.exists_of_run_bind h
    obtain ⟨⟨c, catalogue, sticky'⟩, _, hdecl, h⟩ := Action.exists_of_run_bind h
    obtain ⟨_, _, _, h⟩ := Action.exists_of_run_bind h
    replace hclaim := (Action.eq_of_run_ofResult hclaim).1
    have hfresh : d.1 ∉ Entries.names p.writes := fun hmem =>
      hp.not_mem hclaim (by simp [Plan.names, hmem])
    have hp₁ : Claims { p with catalogue, writes := p.writes.set d.1 c } names₁ :=
      hp.insert hclaim ((perm_cons_append _ (Entries.names_set_perm c hfresh)).append_right _)
    obtain ⟨hc, hsound, hgrows⟩ := WriteCommand.checked_of_ofDecl hcatalogue
      (Result.eq_ok_of_located (Action.eq_of_run_ofResult hdecl).1)
    obtain ⟨hp', hsound', hgrows', new, hwrites, hnew⟩ := ih hp₁ hsound h
    refine ⟨hp', hsound', hgrows.trans hgrows', (d.1, c) :: new, ?_, ?_⟩
    . rw [hwrites, Entries.set_of_not_mem c hfresh, List.append_assoc, List.singleton_append]
    . exact .cons ⟨rfl, hc.grows hgrows'⟩ hnew

theorem checked_of_addTargets {ds : Entries (List StepDecl)} (hp : p.Claims names)
    (h : addTargets p names ds = .ok (p', names'))
    : p'.Claims names' ∧
      ∃ new, p'.targets = p.targets ++ new ∧ Entries.Each (Target.Checked p.kind?) ds new := by
  induction ds generalizing p names with
  | nil =>
    cases h
    exact ⟨hp, [], (List.append_nil _).symm, .nil⟩
  | cons d ds ih =>
    obtain ⟨names₁, hclaim, h⟩ := bind_eq_ok.mp h
    obtain ⟨t, hdecl, h⟩ := bind_eq_ok.mp h
    have hfresh : d.1 ∉ Entries.names p.targets := fun hmem =>
      hp.not_mem hclaim (by simp [Plan.names, hmem])
    have hp₁ : Claims { p with targets := p.targets.set d.1 t } names₁ :=
      hp.insert hclaim (perm_cons_append _ (Entries.names_set_perm t hfresh))
    obtain ⟨hp', new, htargets, hnew⟩ := ih hp₁ h
    refine ⟨hp', (d.1, t) :: new, ?_, ?_⟩
    . rw [htargets, Entries.set_of_not_mem t hfresh, List.append_assoc, List.singleton_append]
    . exact .cons ⟨rfl, Target.checked_of_ofDecl (Result.eq_ok_of_located hdecl)⟩ hnew

end Walks

/--
What checking a document guarantees about its plan. The commands and targets of a section are those
of the document, in order and under their names.
-/
structure Sound (d : Document) (p : Plan) : Prop where
  names : p.names.Nodup
  catalogue : p.catalogue.Sound
  calls : Entries.Each (CallCommand.Checked p.wallets) (d.calls.getD []) p.calls
  reads : Entries.Each (ReadCommand.Checked p.wallets p.catalogue) (d.reads.getD []) p.reads
  writes : Entries.Each (WriteCommand.Checked p.wallets p.catalogue) (d.writes.getD []) p.writes
  targets : Entries.Each (Target.Checked p.kind?) (d.targets.getD []) p.targets

theorem sound_of_ofDocument {services : Services ω} {d : Document} {i : Invocation} {p : Plan}
    {t t' : Trace ω} {node : Option (Node ω)}
    (h : (ofDocument services d i).run t = (.ok (p, node), t')) : p.Sound d := by
  obtain @⟨config, url, wallets, catalogue, p₁, p₂, p₃, names₁, names₂, names₃, names₄, _, _, _, _,
    _, _, hcatalogue, hcalls, hreads, hwrites, htargets⟩ := stages_of_ofDocument h
  have hp₁ := eq_of_addCalls hcalls
  have hp₂ := eq_of_addReads hreads
  have hp₃ := eq_of_addWrites hwrites
  have hp₄ := eq_of_addTargets htargets
  have hnone : Claims { config, node := url, wallets, catalogue } {} :=
    ⟨List.nodup_nil, fun n hn => absurd hn List.not_mem_nil⟩
  obtain ⟨hclaims₁, calls, hcalls', hcallsChecked⟩ := checked_of_addCalls hnone hcalls
  have hsound₁ : p₁.catalogue.Sound := by
    rw [hp₁]
    exact Catalogue.sound_of_ofDecls hcatalogue
  obtain ⟨hclaims₂, hsound₂, _, reads, hreads', hreadsChecked⟩ :=
    checked_of_addReads hclaims₁ hsound₁ hreads
  obtain ⟨hclaims₃, hsound₃, hgrows, writes, hwrites', hwritesChecked⟩ :=
    checked_of_addWrites hclaims₂ hsound₂ hwrites
  obtain ⟨hclaims₄, targets, htargets', htargetsChecked⟩ := checked_of_addTargets hclaims₃ htargets
  -- What a section was checked against is what the plan comes to: later sections only add to it.
  have hwallets₁ : p₁.wallets = wallets := by rw [hp₁]
  have hwallets₂ : p₂.wallets = wallets := by rw [hp₂, hwallets₁]
  have hwallets : p.wallets = wallets := by rw [hp₄, hp₃, hwallets₂]
  have hcatalogue₄ : p.catalogue = p₃.catalogue := by rw [hp₄]
  refine ⟨hclaims₄.nodup, ?_, ?_, ?_, ?_, ?_⟩
  . rw [hcatalogue₄]
    exact hsound₃
  . have hcalls₄ : p.calls = calls := by
      rw [hp₄, hp₃, hp₂, hcalls', List.nil_append]
    rw [hwallets, hcalls₄]
    exact hcallsChecked
  . have hreads₄ : p.reads = reads := by
      rw [hp₄, hp₃, hreads', hp₁, List.nil_append]
    rw [hwallets, hreads₄, hcatalogue₄]
    rw [hwallets₁] at hreadsChecked
    exact hreadsChecked.mono fun _ _ _ hc => hc.grows hgrows
  . have hwrites₄ : p.writes = writes := by
      rw [hp₄, hwrites', hp₂, hp₁, List.nil_append]
    rw [hwallets, hwrites₄, hcatalogue₄]
    rw [hwallets₂] at hwritesChecked
    exact hwritesChecked
  . have htargets₄ : p.targets = targets := by
      rw [htargets', hp₃, hp₂, hp₁, List.nil_append]
    have hkinds : p.kind? = p₃.kind? := by rw [hp₄]; rfl
    rw [htargets₄, hkinds]
    exact htargetsChecked

def TargetsFit (p : Plan) : Prop :=
  ∀ name t, p.targets.find? name = some t → t.Fits p.kind?

def WritesFit (p : Plan) : Prop :=
  ∀ name c, p.writes.find? name = some c → c.Fits

namespace Sound

variable {d : Document} {p : Plan}

theorem distinct (h : p.Sound d) : p.Distinct :=
  distinct_of_nodup h.names

theorem targetsFit (h : p.Sound d) : p.TargetsFit := by
  intro name t ht
  obtain ⟨_, _, hchecked⟩ := h.targets.find? ht
  exact hchecked.fits

theorem writesFit (h : p.Sound d) : p.WritesFit := by
  intro name c hc
  obtain ⟨_, _, hchecked⟩ := h.writes.find? hc
  exact hchecked.fits

end Sound

end Plan

end Runbook
