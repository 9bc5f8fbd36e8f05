import Runbook.Plan.Sound
import Runbook.Proofs.Param.Slot

/-!
This module contains what the arguments on the command line do to the checking of a playbook. They
may be meant for any of its commands, so nothing that is checked hangs on them: a playbook is sound
with all arguments or with none, and its commands run with the same values.
-/

namespace Runbook

theorem resolveParams_alike (scope : Scope) (args args' : List String) (index : Nat)
    (ds : List ParamDecl)
    : Result.Alike (List.Forall₂ Slot.Alike) (resolveParams { scope with args } index ds)
        (resolveParams { scope with args := args' } index ds) := by
  induction ds generalizing index with
  | nil => exact .ok .nil
  | cons d ds ih =>
    unfold resolveParams
    apply Result.Alike.bind ((d.resolve_alike scope args args').mapError _)
    intro r r' hr
    apply Result.Alike.bind (ih (index + 1))
    intro slots slots' hslots
    exact .ok (.cons hr hslots)

section Commands

variable (ws : Wallets) (args args' : List String)

theorem declScope_params_alike (command : String) (ds : List ParamDecl)
    : Result.Alike (List.Forall₂ Slot.Alike) (resolveParams (declScope ws args command) 0 ds)
        (resolveParams (declScope ws args' command) 0 ds) :=
  resolveParams_alike (declScope ws [] command) args args' 0 ds

/--
The same commands but for what is noted down about their parameters, which get the same values.
-/
def CallCommand.Alike (c c' : CallCommand) : Prop :=
  c' = { c with params := c'.params } ∧ List.Forall₂ Slot.Alike c.params c'.params

def ReadCommand.Alike (c c' : ReadCommand) : Prop :=
  c' = { c with params := c'.params } ∧ List.Forall₂ Slot.Alike c.params c'.params

def WriteCommand.Alike (c c' : WriteCommand) : Prop :=
  c' = { c with params := c'.params } ∧ List.Forall₂ Slot.Alike c.params c'.params

theorem CallCommand.ofDecl_alike (name : String) (d : CallDecl)
    : Result.Alike CallCommand.Alike (ofDecl ws args name d) (ofDecl ws args' name d) := by
  unfold ofDecl
  apply Result.Alike.bind_same
  intro _
  apply Result.Alike.bind_same
  intro wallets
  split
  . exact .error _
  . apply Result.Alike.bind (declScope_params_alike ws args args' name d.params)
    intro slots slots' hslots
    exact .ok ⟨rfl, hslots⟩

theorem ReadCommand.ofDecl_alike (c : Catalogue) (name : String) (d : ReadDecl)
    : Result.Alike (fun x x' => x.1.Alike x'.1 ∧ x.2 = x'.2) (ofDecl ws args c name d)
        (ofDecl ws args' c name d) := by
  unfold ofDecl
  apply Result.Alike.bind_same
  intro wallets
  split
  . exact .error _
  . apply Result.Alike.bind_same
    rintro ⟨target, c⟩
    apply Result.Alike.bind_same
    intro _
    apply Result.Alike.bind (declScope_params_alike ws args args' name d.params)
    intro slots slots' hslots
    exact .ok ⟨⟨rfl, hslots⟩, rfl⟩

theorem WriteCommand.ofDecl_params (c : Catalogue) (sticky : Sticky) (name : String) (d : WriteDecl)
    : ofDecl ws args c sticky name d
      = ofDecl ws [] c sticky name { d with params := [] } >>= fun x =>
        resolveParams (declScope ws args name) 0 d.params >>= fun params =>
        pure ({ x.1 with params }, x.2) := by
  unfold ofDecl
  simp only [resolveParams, pure_bind]
  split
  . rfl
  . simp only [bind_assoc]
    refine bind_congr fun _ => bind_congr fun _ => bind_congr fun _ => bind_congr fun _ => ?_
    -- The method and the value are each checked if they are there.
    split <;> split
    . simp only [bind_assoc]
      exact bind_congr fun _ => bind_congr fun _ => bind_congr fun _ => by split <;> rfl
    . simp only [bind_assoc]
      exact bind_congr fun _ => bind_congr fun _ => by split <;> rfl
    . simp only [bind_assoc]
      exact bind_congr fun _ => bind_congr fun _ => by split <;> rfl
    . simp only [bind_assoc]
      exact bind_congr fun _ => by split <;> rfl

theorem WriteCommand.ofDecl_alike (c : Catalogue) (sticky : Sticky) (name : String) (d : WriteDecl)
    : Result.Alike (fun x x' => x.1.Alike x'.1 ∧ x.2 = x'.2) (ofDecl ws args c sticky name d)
        (ofDecl ws args' c sticky name d) := by
  rw [ofDecl_params ws args, ofDecl_params ws args']
  apply Result.Alike.bind_same
  intro x
  apply Result.Alike.bind (declScope_params_alike ws args args' name d.params)
  intro slots slots' hslots
  exact .ok ⟨⟨rfl, hslots⟩, rfl⟩

end Commands

/--
The same plans but for what is noted down about parameters, which get the same values.
-/
structure Plan.Alike (p q : Plan) : Prop where
  config : p.config = q.config
  node : p.node = q.node
  wallets : p.wallets = q.wallets
  catalogue : p.catalogue = q.catalogue
  calls : Entries.Alike CallCommand.Alike p.calls q.calls
  reads : Entries.Alike ReadCommand.Alike p.reads q.reads
  writes : Entries.Alike WriteCommand.Alike p.writes q.writes
  targets : p.targets = q.targets

namespace Plan

variable {ω : Type} {p q : Plan} {args args' : List String}

theorem Alike.kind? (h : p.Alike q) : p.kind? = q.kind? := by
  funext name
  unfold Plan.kind?
  rw [h.calls.contains, h.reads.contains, h.writes.contains]

theorem addCalls_alike (h : p.Alike q) (names : Names) (ds : Entries CallDecl)
    : Result.Alike (fun x y => x.1.Alike y.1 ∧ x.2 = y.2) (addCalls args p names ds)
        (addCalls args' q names ds) := by
  induction ds generalizing p q names with
  | nil => exact .ok ⟨h, rfl⟩
  | cons d ds ih =>
    unfold addCalls
    apply Result.Alike.bind_same
    intro names
    rw [h.wallets]
    apply Result.Alike.bind ((CallCommand.ofDecl_alike q.wallets args args' d.1 d.2).mapError _)
    intro c c' hc
    refine ih ?_ names
    exact { h with wallets := rfl, calls := h.calls.set d.1 hc }

theorem addReads_alike (h : p.Alike q) (names : Names) (ds : Entries ReadDecl)
    : Result.Alike (fun x y => x.1.Alike y.1 ∧ x.2 = y.2) (addReads args p names ds)
        (addReads args' q names ds) := by
  induction ds generalizing p q names with
  | nil => exact .ok ⟨h, rfl⟩
  | cons d ds ih =>
    unfold addReads
    apply Result.Alike.bind_same
    intro names
    rw [h.wallets, h.catalogue]
    apply Result.Alike.bind
      ((ReadCommand.ofDecl_alike q.wallets args args' q.catalogue d.1 d.2).mapError _)
    rintro ⟨c, catalogue⟩ ⟨c', _⟩ ⟨hc, rfl⟩
    refine ih ?_ names
    exact { h with wallets := rfl, catalogue := rfl, reads := h.reads.set d.1 hc }

theorem addWrites_alike (h : p.Alike q) (names : Names) (sticky : Sticky) (ds : Entries WriteDecl)
    : Action.Alike (fun x y => x.1.Alike y.1 ∧ x.2 = y.2)
        (addWrites args p names sticky ds : Action (Trace ω) _)
        (addWrites args' q names sticky ds) := by
  induction ds generalizing p q names sticky with
  | nil => exact .pure ⟨h, rfl⟩
  | cons d ds ih =>
    unfold addWrites
    apply Action.Alike.bind_same
    intro names
    rw [h.wallets, h.catalogue]
    apply Action.Alike.bind (.ofResult
      ((WriteCommand.ofDecl_alike q.wallets args args' q.catalogue sticky d.1 d.2).mapError _))
    rintro ⟨c, catalogue, sticky⟩ ⟨c', _⟩ ⟨hc, rfl⟩
    dsimp only at hc ⊢
    have hwallet : c'.wallet = c.wallet := by rw [hc.1]
    rw [hwallet]
    apply Action.Alike.bind_same
    intro _
    refine ih ?_ names sticky
    exact { h with wallets := rfl, catalogue := rfl, writes := h.writes.set d.1 hc }

theorem addTargets_alike (h : p.Alike q) (names : Names) (ds : Entries (List StepDecl))
    : Result.Alike (fun x y => x.1.Alike y.1 ∧ x.2 = y.2) (addTargets p names ds)
        (addTargets q names ds) := by
  induction ds generalizing p q names with
  | nil => exact .ok ⟨h, rfl⟩
  | cons d ds ih =>
    unfold addTargets
    apply Result.Alike.bind_same
    intro names
    rw [h.kind?]
    apply Result.Alike.bind_same
    intro t
    refine ih ?_ names
    exact { h with targets := congrArg (Entries.set · d.1 t) h.targets }

/--
The arguments on the command line have no part in whether a playbook is sound, in what is asked and
noted down while it is checked, and in the values that its commands run with: with `args` and with
`args'` a playbook has the same fault, or plans that are the same but for what is noted down about
parameters, each of which gets the same value or fault whenever its command runs.
-/
theorem ofDocument_alike (services : Services ω) (d : Document) (i : Invocation)
    (args args' : List String)
    : Action.Alike (fun x y => x.1.Alike y.1 ∧ x.2 = y.2) (ofDocument services d { i with args })
        (ofDocument services d { i with args := args' }) := by
  unfold ofDocument
  apply Action.Alike.bind_same
  intro config
  apply Action.Alike.bind_same
  intro node
  apply Action.Alike.bind_same
  intro _
  apply Action.Alike.bind_same
  intro wallets
  apply Action.Alike.bind_same
  intro catalogue
  have hempty : Plan.Alike { config, node := node.map Prod.fst, wallets, catalogue }
      { config, node := node.map Prod.fst, wallets, catalogue } :=
    ⟨rfl, rfl, rfl, rfl, .nil, .nil, .nil, rfl⟩
  apply Action.Alike.bind (.ofResult (addCalls_alike hempty {} _))
  rintro ⟨p, names⟩ ⟨q, _⟩ ⟨hpq, rfl⟩
  apply Action.Alike.bind (.ofResult (addReads_alike hpq names _))
  rintro ⟨p, names⟩ ⟨q, _⟩ ⟨hpq, rfl⟩
  apply Action.Alike.bind (addWrites_alike hpq names {} _)
  rintro ⟨p, names⟩ ⟨q, _⟩ ⟨hpq, rfl⟩
  apply Action.Alike.bind (.ofResult (addTargets_alike hpq names _))
  rintro ⟨p, names⟩ ⟨q, _⟩ ⟨hpq, rfl⟩
  apply Action.Alike.bind_same
  intro _
  exact .pure ⟨hpq, rfl⟩

end Plan

end Runbook
