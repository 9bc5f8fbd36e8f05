import Mathlib.Data.List.Forall2
import Runbook.Plan.Command
import Runbook.Proofs.Plan.Catalogue
import Runbook.Proofs.Wallet.Sticky

/-!
This module contains what a command is once its declaration is checked: its wallets exist, its
instance has its method, and its parameters are resolved as far as they can be.
-/

namespace Runbook

theorem eq_ok_of_guarded {α β : Type} {p : Prop} [Decidable p] {kind : FaultKind} {note : String}
    {r : Result α} {x : α} (h : (if p then fail kind note >>= fun (_ : β) => r else r) = .ok x)
    : ¬ p ∧ r = .ok x := by
  split at h
  . cases h
  . next hp => exact ⟨hp, h⟩

structure Wallets.Picked (ws : Wallets) (selector name : String) : Prop where
  exists_wallet : ∃ w, Entries.find? ws name = some w
  accepts : ∃ s, Selector.parse selector = .ok s ∧ s.accepts name = true

theorem Wallets.picked_of_matching {ws : Wallets} {selector name : String} {s : Selector}
    (hs : Selector.parse selector = .ok s) (h : name ∈ s.matching (Entries.names ws))
    : ws.Picked selector name := by
  obtain ⟨hmem, haccepts⟩ := List.mem_filter.mp h
  exact ⟨Entries.exists_of_mem_names hmem, s, hs, haccepts⟩

theorem picked_of_selectWallets {ws : Wallets} {selector : String} {names : List String}
    (h : selectWallets ws selector = .ok names) : ∀ n ∈ names, ws.Picked selector n := by
  obtain ⟨s, hs, h⟩ := bind_eq_ok.mp h
  dsimp only at h
  split at h
  . cases h
  . cases h
    exact fun n hn => Wallets.picked_of_matching hs hn

structure Slot.Checked (d : ParamDecl) (s : Slot) : Prop where
  decl : s.decl = d
  resolution : ∃ scope, d.resolve scope = .ok s.resolution

theorem checked_of_resolveParams {scope : Scope} {index : Nat} {ds : List ParamDecl}
    {slots : List Slot} (h : resolveParams scope index ds = .ok slots)
    : List.Forall₂ Slot.Checked ds slots := by
  induction ds generalizing index slots with
  | nil =>
    cases h
    exact .nil
  | cons d ds ih =>
    obtain ⟨resolution, hresolve, h⟩ := bind_eq_ok.mp h
    obtain ⟨rest, hrest, h⟩ := bind_eq_ok.mp h
    cases h
    exact .cons ⟨rfl, scope, Result.attach_eq_ok.mp hresolve⟩ (ih hrest)

theorem exists_mem_of_forall₂ {α β : Type} {R : α → β → Prop} {xs : List α} {ys : List β}
    (h : List.Forall₂ R xs ys) {x : α} (hx : x ∈ xs) : ∃ y ∈ ys, R x y := by
  induction h with
  | nil => cases hx
  | @cons _ y _ ys hfirst _ ih =>
    rcases List.mem_cons.mp hx with rfl | hmem
    . exact ⟨y, List.mem_cons_self .., hfirst⟩
    . obtain ⟨y', hy', hR⟩ := ih hmem
      exact ⟨y', List.mem_cons_of_mem _ hy', hR⟩

theorem Slot.exists_resolve_of_mem {ds : List ParamDecl} {slots : List Slot}
    (h : List.Forall₂ Slot.Checked ds slots) {s : Slot} (hs : s ∈ slots)
    : ∃ scope, s.decl.resolve scope = .ok s.resolution := by
  obtain ⟨d, _, hchecked⟩ := exists_mem_of_forall₂ h.flip hs
  rw [hchecked.decl]
  exact hchecked.resolution

section Commands

variable {ws : Wallets} {args : List String} {name : String}

structure CallCommand.Checked (ws : Wallets) (name : String) (d : CallDecl) (c : CallCommand) :
    Prop where
  named : c.name = name
  wallets : ∀ n ∈ c.wallets, ws.Picked (d.wallet.getD "") n
  params : List.Forall₂ Slot.Checked d.params c.params

theorem CallCommand.checked_of_ofDecl {d : CallDecl} {c : CallCommand}
    (h : ofDecl ws args name d = .ok c) : c.Checked ws name d := by
  obtain ⟨_, _, h⟩ := bind_eq_ok.mp h
  obtain ⟨wallets, hwallets, h⟩ := bind_eq_ok.mp h
  split at h
  . cases h
  . obtain ⟨params, hparams, h⟩ := bind_eq_ok.mp h
    cases h
    exact ⟨rfl, picked_of_selectWallets hwallets, checked_of_resolveParams hparams⟩

structure ReadCommand.Checked (ws : Wallets) (catalogue : Catalogue) (name : String) (d : ReadDecl)
    (c : ReadCommand) : Prop where
  named : c.name = name
  wallets : ∀ n ∈ c.wallets, ws.Picked (d.wallet.getD "") n
  offers : catalogue.Offers c.target (some c.method)
  params : List.Forall₂ Slot.Checked d.params c.params

theorem ReadCommand.checked_of_ofDecl {d : ReadDecl} {c : ReadCommand}
    {catalogue bound : Catalogue} (hcatalogue : catalogue.Sound)
    (h : ofDecl ws args catalogue name d = .ok (c, bound))
    : c.Checked ws bound name d ∧ bound.Sound ∧ catalogue.Grows bound := by
  obtain ⟨wallets, hwallets, h⟩ := bind_eq_ok.mp h
  split at h
  . cases h
  . next ref _ =>
    obtain ⟨⟨target, bound'⟩, hbind, h⟩ := bind_eq_ok.mp h
    obtain ⟨_, hmethod, h⟩ := bind_eq_ok.mp h
    obtain ⟨params, hparams, h⟩ := bind_eq_ok.mp h
    cases h
    obtain ⟨hsound, hgrows, _⟩ := hcatalogue.bind hbind
    exact ⟨⟨rfl, picked_of_selectWallets hwallets, Catalogue.offers_of_requireMethod hmethod,
      checked_of_resolveParams hparams⟩, hsound, hgrows⟩

def WriteCommand.Fits (c : WriteCommand) : Prop :=
  c.target = none → c.value.isSome ∧ c.recipient.isSome

theorem WriteCommand.fits_of_check {c : WriteCommand}
    (h : ¬ (c.target.isNone && (c.value.isNone || c.recipient.isNone)) = true) : c.Fits := by
  intro htarget
  rw [htarget] at h
  cases hvalue : c.value <;> cases hrecipient : c.recipient <;> simp_all

structure WriteCommand.Checked (ws : Wallets) (catalogue : Catalogue) (name : String)
    (d : WriteDecl) (c : WriteCommand) : Prop where
  named : c.name = name
  wallet : ws.Picked (Text.trim (d.wallet.getD "")) c.wallet
  recipient : ∀ n, c.recipient = some (.wallet n) → ∃ w, Entries.find? ws n = some w
  offers : ∀ id, c.target = some id → catalogue.Offers id c.method
  fits : c.Fits
  params : List.Forall₂ Slot.Checked d.params c.params

theorem WriteCommand.bound_of_bindTarget {catalogue bound : Catalogue} {ref? : Option InstanceRef}
    {target : Option Nat} (hcatalogue : catalogue.Sound)
    (h : bindTarget catalogue ref? = .ok (target, bound))
    : bound.Sound ∧ catalogue.Grows bound ∧
      ∀ id, target = some id → id < bound.instances.length := by
  cases ref? with
  | none =>
    cases h
    refine ⟨hcatalogue, .refl _, ?_⟩
    intro id hid
    cases hid
  | some ref =>
    obtain ⟨⟨id, bound'⟩, hbind, h⟩ := bind_eq_ok.mp h
    cases h
    obtain ⟨hsound, hgrows, hlt⟩ := hcatalogue.bind hbind
    refine ⟨hsound, hgrows, ?_⟩
    rintro _ ⟨⟩
    exact hlt

theorem Recipient.exists_of_parse {text name : String}
    (h : Recipient.parse ws.directory text = .ok (.wallet name))
    : ∃ w, Entries.find? ws name = some w := by
  unfold Recipient.parse at h
  split at h
  . obtain ⟨r, _, h⟩ := bind_eq_ok.mp h
    split at h
    . next owner =>
      split at h
      . next hcontains =>
        cases h
        exact Entries.exists_of_mem_names (Entries.mem_names_iff.mpr hcontains)
      . cases h
    . cases h
  . split at h
    . cases h
    . split at h <;> cases h

theorem WriteCommand.exists_of_recipientOf {text? : Option String} {recipient : Option Recipient}
    (h : recipientOf ws.directory text? = .ok recipient)
    : ∀ n, recipient = some (.wallet n) → ∃ w, Entries.find? ws n = some w := by
  rintro n rfl
  unfold recipientOf at h
  split at h
  . cases h
  . obtain ⟨r, hr, heq⟩ := map_eq_ok.mp h
    cases heq
    exact Recipient.exists_of_parse hr

structure WriteCommand.Stages (ws : Wallets) (args : List String) (catalogue : Catalogue)
    (name : String) (d : WriteDecl) (c : WriteCommand) (bound : Catalogue) : Prop where
  named : c.name = name
  wallet : ws.Picked (Text.trim (d.wallet.getD "")) c.wallet
  target : bindTarget catalogue d.instanceRef = .ok (c.target, bound)
  method : ∀ id m, c.target = some id → c.method = some m → requireMethod bound id m = .ok ()
  value : ∀ text, c.value = some text → checkValueReferences ws.directory text = .ok ()
  recipient : recipientOf ws.directory d.recipient = .ok c.recipient
  fits : c.Fits
  params : resolveParams (declScope ws args name) 0 d.params = .ok c.params

theorem WriteCommand.stages_of_tail {d : WriteDecl} {wallet stickyKey note : String}
    {method value : Option String} {target : Option Nat} {catalogue bound bound' : Catalogue}
    {sticky sticky' : Sticky} {c : WriteCommand}
    (hwallet : ws.Picked (Text.trim (d.wallet.getD "")) wallet)
    (htarget : bindTarget catalogue d.instanceRef = .ok (target, bound))
    (hmethod : ∀ id m, target = some id → method = some m → requireMethod bound id m = .ok ())
    (h : (do
        if let some text := value then
          checkValueReferences ws.directory text
        let recipient ← recipientOf ws.directory d.recipient
        if target.isNone && (value.isNone || recipient.isNone) then
          fail .validation note
        let params ← resolveParams (declScope ws args name) 0 d.params
        let c : WriteCommand := { name, description := d.description, wallet, stickyKey, method,
                                  params, target, value, recipient }
        return (c, bound, sticky)) = Except.ok (c, bound', sticky'))
    : Stages ws args catalogue name d c bound' := by
  cases value with
  | none =>
    obtain ⟨recipient, hrecipient, h⟩ := bind_eq_ok.mp h
    obtain ⟨hcheck, h⟩ := eq_ok_of_guarded h
    obtain ⟨params, hparams, h⟩ := bind_eq_ok.mp h
    cases h
    exact ⟨rfl, hwallet, htarget, hmethod, nofun, hrecipient, fits_of_check hcheck, hparams⟩
  | some text =>
    obtain ⟨_, hvalue, h⟩ := bind_eq_ok.mp h
    obtain ⟨recipient, hrecipient, h⟩ := bind_eq_ok.mp h
    obtain ⟨hcheck, h⟩ := eq_ok_of_guarded h
    obtain ⟨params, hparams, h⟩ := bind_eq_ok.mp h
    cases h
    refine ⟨rfl, hwallet, htarget, hmethod, ?_, hrecipient, fits_of_check hcheck, hparams⟩
    rintro _ ⟨⟩
    exact hvalue

theorem WriteCommand.stages_of_ofDecl {d : WriteDecl} {c : WriteCommand}
    {catalogue bound : Catalogue} {sticky sticky' : Sticky}
    (h : ofDecl ws args catalogue sticky name d = .ok (c, bound, sticky'))
    : Stages ws args catalogue name d c bound := by
  unfold ofDecl at h
  dsimp only at h
  split at h
  . cases h
  . obtain ⟨_, _, h⟩ := bind_eq_ok.mp h
    obtain ⟨selector, hselector, h⟩ := bind_eq_ok.mp h
    obtain ⟨⟨wallet, _⟩, hselect, h⟩ := bind_eq_ok.mp h
    obtain ⟨⟨target, bound'⟩, htarget, h⟩ := bind_eq_ok.mp h
    have hwallet := Wallets.picked_of_matching hselector
      (Sticky.mem_of_select (Result.attach_eq_ok.mp hselect))
    split at h
    . next id m hmatch =>
      obtain ⟨htargeted, hnamed⟩ := Prod.mk.inj hmatch
      obtain ⟨_, hrequired, h⟩ := bind_eq_ok.mp h
      refine stages_of_tail hwallet htarget (fun id' m' hid hm => ?_) h
      cases htargeted.symm.trans hid
      cases hnamed.symm.trans hm
      exact hrequired
    . next hmatch =>
      refine stages_of_tail hwallet htarget (fun id m hid hm => ?_) h
      exact absurd (Prod.ext hid hm) (hmatch id m)

theorem WriteCommand.Stages.offers {catalogue bound : Catalogue} {d : WriteDecl} {c : WriteCommand}
    (h : Stages ws args catalogue name d c bound) (hbound : bound.Sound)
    (hlt : ∀ id, c.target = some id → id < bound.instances.length)
    : ∀ id, c.target = some id → bound.Offers id c.method := by
  intro id hid
  cases hmethod : c.method with
  | none => exact hbound.offers_none (hlt id hid)
  | some m => exact Catalogue.offers_of_requireMethod (h.method id m hid hmethod)

theorem WriteCommand.checked_of_ofDecl {d : WriteDecl} {c : WriteCommand}
    {catalogue bound : Catalogue} {sticky sticky' : Sticky} (hcatalogue : catalogue.Sound)
    (h : ofDecl ws args catalogue sticky name d = .ok (c, bound, sticky'))
    : c.Checked ws bound name d ∧ bound.Sound ∧ catalogue.Grows bound := by
  have hstages := stages_of_ofDecl h
  obtain ⟨hsound, hgrows, hlt⟩ := bound_of_bindTarget hcatalogue hstages.target
  exact ⟨⟨hstages.named, hstages.wallet, exists_of_recipientOf hstages.recipient,
    hstages.offers hsound hlt, hstages.fits, checked_of_resolveParams hstages.params⟩, hsound,
    hgrows⟩

variable {catalogue catalogue' : Catalogue}

theorem ReadCommand.Checked.grows {d : ReadDecl} {c : ReadCommand}
    (h : c.Checked ws catalogue name d) (hgrows : catalogue.Grows catalogue')
    : c.Checked ws catalogue' name d :=
  { h with offers := hgrows.offers h.offers }

theorem WriteCommand.Checked.grows {d : WriteDecl} {c : WriteCommand}
    (h : c.Checked ws catalogue name d) (hgrows : catalogue.Grows catalogue')
    : c.Checked ws catalogue' name d :=
  { h with offers := fun id hid => hgrows.offers (h.offers id hid) }

end Commands

end Runbook
