import Runbook.Proofs.Engine.Event
import Runbook.Proofs.Plan.Sound

/-!
This module contains why a plan stays sound while its commands run: nothing that it was checked for
hangs on balances, token symbols or the addresses of instances.
-/

namespace Runbook

theorem Wallets.addressOf_eq_ok {ws : Wallets} {name : String} {a : Address}
    : ws.addressOf name = .ok a ↔ ∃ w, Entries.find? ws name = some w ∧ w.address = a := by
  unfold addressOf
  cases Entries.find? ws name with
  | none => simp [fail, throw, throwThe, MonadExceptOf.throw]
  | some w => simp [pure, Except.pure]

namespace Plan.Like

variable {p q : Plan} {d : Document}

theorem commandIndices (h : p.Like q) : q.commandIndices = p.commandIndices := by
  funext name
  unfold Plan.commandIndices
  rw [h.calls, h.reads, h.writes]

theorem exists_wallet (h : p.Like q) {name : String}
    (hp : ∃ w, Entries.find? p.wallets name = some w)
    : ∃ w, Entries.find? q.wallets name = some w := by
  obtain ⟨w, hw⟩ := hp
  have haddress := h.wallets name
  rw [Wallets.addressOf_eq_ok.mpr ⟨w, hw, rfl⟩] at haddress
  obtain ⟨w', hw', _⟩ := Wallets.addressOf_eq_ok.mp haddress
  exact ⟨w', hw'⟩

theorem picked (h : p.Like q) {selector name : String} (hp : p.wallets.Picked selector name)
    : q.wallets.Picked selector name :=
  ⟨h.exists_wallet hp.exists_wallet, hp.accepts⟩

theorem exists_instance (h : p.Like q) {id : Nat} {i : Instance}
    (hi : p.catalogue.instance? id = some i)
    : ∃ j, q.catalogue.instance? id = some j ∧ j.contract = i.contract := by
  have hcontract := h.contracts id
  rw [hi] at hcontract
  exact Option.map_eq_some_iff.mp hcontract

theorem symm_exists_instance (h : p.Like q) {id : Nat} {j : Instance}
    (hj : q.catalogue.instance? id = some j)
    : ∃ i, p.catalogue.instance? id = some i ∧ i.contract = j.contract := by
  have hcontract := h.contracts id
  rw [hj] at hcontract
  exact Option.map_eq_some_iff.mp hcontract.symm

theorem buildOf (h : p.Like q) {id : Nat} {build : Build}
    (hbuild : p.catalogue.buildOf id = .ok build) : q.catalogue.buildOf id = .ok build := by
  obtain ⟨i, hi, hfind⟩ := Catalogue.buildOf_eq_ok.mp hbuild
  obtain ⟨j, hj, hcontract⟩ := h.exists_instance hi
  refine Catalogue.buildOf_eq_ok.mpr ⟨j, hj, ?_⟩
  rw [h.builds, hcontract]
  exact hfind

theorem offers (h : p.Like q) {id : Nat} {method? : Option String}
    (hp : p.catalogue.Offers id method?) : q.catalogue.Offers id method? := by
  obtain ⟨build, hbuild, hmethod⟩ := hp
  exact ⟨build, h.buildOf hbuild, hmethod⟩

theorem catalogue_sound (h : p.Like q) (hp : p.catalogue.Sound) : q.catalogue.Sound where
  names := by
    have hnames (c : Catalogue)
        : c.instanceNames = (c.instances.map Instance.name).filterMap id := by
      rw [List.filterMap_map]
      rfl
    rw [hnames, h.names, ← hnames]
    exact hp.names
  contracts := by
    intro j hj
    obtain ⟨id, hid⟩ := List.mem_iff_getElem?.mp hj
    obtain ⟨i, hi, hcontract⟩ := h.symm_exists_instance hid
    rw [h.builds, ← hcontract]
    exact hp.contracts i (List.mem_of_getElem? hi)

theorem sound (h : p.Like q) (hp : p.Sound d) : q.Sound d where
  names := by
    unfold Plan.names
    rw [h.calls, h.reads, h.writes, h.targets]
    exact hp.names
  catalogue := h.catalogue_sound hp.catalogue
  calls := by
    rw [h.calls]
    exact hp.calls.mono fun _ _ _ hc =>
      { hc with wallets := fun n hn => h.picked (hc.wallets n hn) }
  reads := by
    rw [h.reads]
    exact hp.reads.mono fun _ _ _ hc =>
      { hc with
        wallets := fun n hn => h.picked (hc.wallets n hn)
        offers := h.offers hc.offers }
  writes := by
    rw [h.writes]
    exact hp.writes.mono fun _ _ _ hc =>
      { hc with
        wallet := h.picked hc.wallet
        recipient := fun n hn => h.exists_wallet (hc.recipient n hn)
        offers := fun id hid => h.offers (hc.offers id hid) }
  targets := by
    have hkinds : q.kind? = p.kind? := funext h.kind?
    rw [h.targets, hkinds]
    exact hp.targets

theorem targetsFit (h : p.Like q) (hp : p.TargetsFit) : q.TargetsFit := by
  have hkinds : q.kind? = p.kind? := funext h.kind?
  unfold Plan.TargetsFit
  rw [h.targets, hkinds]
  exact hp

end Plan.Like

end Runbook
