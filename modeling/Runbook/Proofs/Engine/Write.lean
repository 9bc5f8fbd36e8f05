import Runbook.Proofs.Engine.Intent
import Runbook.Proofs.Engine.Query

/-!
This module contains what a write does to a session. All that can fail before the transaction is
sent is taken as one operation of its own.
-/

namespace Runbook.Session

variable {ω : Type} {host : Host ω} {σ σ' : Session ω}

def Gathering (_ : Session ω) : Event → Prop
  | .ask (.view _) | .ask (.balance _) => True
  | .log _ _ | .probe _ | .balance _ _ | .symbol _ _ => True
  | _ => False

/--
What may happen once it is known what a transaction does. The plan stays as it is.
-/
def Signing (_ : Session ω) : Event → Prop
  | .ask (.nonce _) | .ask (.estimate _) | .unlock _ _ | .log _ _ => True
  | _ => False

/--
What may happen between the search for token symbols and the sending. No instance changes.
-/
def Arranging (_ : Session ω) : Event → Prop
  | .ask (.balance _) | .ask (.nonce _) | .ask .gasPrice | .ask (.estimate _) => True
  | .unlock _ _ | .log _ _ | .balance _ _ => True
  | _ => False

def Preparing (_ : Session ω) : Event → Prop
  | .ask (.view _) | .ask (.balance _) | .ask (.nonce _) => True
  | .ask .gasPrice | .ask (.estimate _) => True
  | .unlock _ _ | .log _ _ | .probe _ | .balance _ _ | .symbol _ _ => True
  | _ => False

theorem preparing_of_probing (σ : Session ω) (e : Event) (h : Probing σ e) : Preparing σ e := by
  unfold Probing at h
  split at h
  all_goals trivial

theorem gathering_of_probing (σ : Session ω) (e : Event) (h : Probing σ e) : Gathering σ e := by
  unfold Probing at h
  split at h
  all_goals trivial

theorem preparing_of_gathering (σ : Session ω) (e : Event) (h : Gathering σ e)
    : Preparing σ e := by
  unfold Gathering at h
  split at h
  all_goals trivial

theorem preparing_of_arranging (σ : Session ω) (e : Event) (h : Arranging σ e)
    : Preparing σ e := by
  unfold Arranging at h
  split at h
  all_goals trivial

theorem arranging_of_signing (σ : Session ω) (e : Event) (h : Signing σ e) : Arranging σ e := by
  unfold Signing at h
  split at h
  all_goals trivial

theorem Runs.plan_of_signing (h : Runs host Signing σ σ') : σ'.plan = σ.plan := by
  induction h with
  | nil => rfl
  | cons e he _ ih =>
    rw [ih]
    cases e with
    | balance => exact he.elim
    | symbol => exact he.elim
    | address => exact he.elim
    | _ => rfl

structure Ready where
  sender : Address
  nonce : Nat
  intent : Intent
  signed : SignedTransaction

def prepare (host : Host ω) (c : WriteCommand) (args : List String) : Action (Session ω) Ready := do
  Action.perform (discoverSymbols host)
  let sender ← reads (·.wallets.addressOf c.wallet)
  refreshBalances host (balancesOf c)
  let price ← Action.perform (gasPrice host)
  let amount ← reads (amountOf c args)
  let intent ← reads (·.intent c args amount)
  let payload ← reads (·.payload c args sender intent)
  let nonce ← ask host (.nonce sender)
  let chain := (← get).plan.config.chainId
  let draft : Draft := { sender, nonce, gasPrice := price, chain, payload }
  let limit ← Action.perform (gasLimit host draft)
  let signed ← sign host c.wallet (draft.withGas limit)
  return { sender, nonce, intent, signed }

def send (host : Host ω) (r : Ready) : Action (Session ω) Hash :=
  (ask host (.send r.signed)).attach ("broadcasting transaction " ++ Hash.text r.signed.hash)

def settle (host : Host ω) (c : WriteCommand) (r : Ready) (hash : Hash) :
    Action (Session ω) Hash := do
  note .info ("wallet " ++ c.wallet ++ " submitted transaction " ++ hash.text ++ " (nonce "
    ++ toString r.nonce ++ ")")
  if let .deploy id _ := r.intent then
    Action.perform (deployed host id (r.sender.create r.nonce))
  return hash

theorem submitWrite_eq (host : Host ω) (c : WriteCommand) (args : List String)
    : submitWrite host c args
        =
      (do
        let r ← prepare host c args
        let hash ← send host r
        settle host c r hash) := by
  simp only [submitWrite, submit, prepare, send, settle, bind_assoc, pure_bind]
  rfl

def gather (host : Host ω) (c : WriteCommand) : Action (Session ω) (Address × Nat) := do
  let sender ← reads (·.wallets.addressOf c.wallet)
  refreshBalances host (balancesOf c)
  let price ← Action.perform (gasPrice host)
  return (sender, price)

def compose (host : Host ω) (c : WriteCommand) (args : List String) (sender : Address)
    (price : Nat) (amount : Option Amount) : Action (Session ω) Ready := do
  let intent ← reads (·.intent c args amount)
  let payload ← reads (·.payload c args sender intent)
  let nonce ← ask host (.nonce sender)
  let chain := (← get).plan.config.chainId
  let draft : Draft := { sender, nonce, gasPrice := price, chain, payload }
  let limit ← Action.perform (gasLimit host draft)
  let signed ← sign host c.wallet (draft.withGas limit)
  return { sender, nonce, intent, signed }

theorem prepare_eq (host : Host ω) (c : WriteCommand) (args : List String)
    : prepare host c args
        =
      (do
        Action.perform (discoverSymbols host)
        let (sender, price) ← gather host c
        let amount ← reads (amountOf c args)
        compose host c args sender price amount) := by
  simp only [prepare, gather, compose, bind_assoc, pure_bind]

theorem follows_refreshBalances {Allowed : Session ω → Event → Prop}
    (hask : ∀ σ a, Allowed σ (.ask (.balance a)))
    (hbalance : ∀ σ name balance, Allowed σ (.balance name balance)) (names : List String)
    : Follows host Allowed (refreshBalances host names).run := by
  induction names with
  | nil => exact follows_return _
  | cons name names ih =>
    unfold refreshBalances
    apply follows_action_bind
    . unfold refreshBalance
      apply follows_action_bind (follows_reads _)
      intro address
      apply follows_action_bind (follows_mapError _ (follows_ask fun σ => hask σ _))
      intro balance σ
      exact .single (.balance name balance) (hbalance _ _ _)
    . intro _
      exact ih

theorem follows_arrangedPrice : Follows host Arranging (gasPrice host) := by
  unfold gasPrice
  apply follows_bind follows_get
  intro σ
  apply follows_bind (follows_ask fun _ => trivial)
  intro r
  split
  . split <;> exact follows_pure _
  . exact follows_bind (follows_write fun _ => trivial) (fun _ => follows_pure _)

theorem follows_gasPrice : Follows host Preparing (gasPrice host) :=
  follows_arrangedPrice.mono preparing_of_arranging

theorem follows_gather (c : WriteCommand) : Follows host Arranging (gather host c).run := by
  unfold gather
  apply follows_action_bind (follows_reads _)
  intro sender
  apply follows_action_bind (follows_refreshBalances (fun _ _ => trivial) (fun _ _ _ => trivial) _)
  intro _
  apply follows_action_bind (follows_perform follows_arrangedPrice)
  intro price
  exact follows_return _

theorem follows_gasLimit (d : Draft) : Follows host Signing (gasLimit host d) := by
  unfold gasLimit
  apply follows_bind follows_get
  intro σ
  apply follows_bind (follows_ask fun _ => trivial)
  intro r
  split
  . split <;> exact follows_pure _
  . exact follows_bind (follows_write fun _ => trivial) (fun _ => follows_pure _)

theorem follows_sign (name : String) (t : Transaction)
    : Follows host Signing (sign host name t).run := by
  unfold sign
  -- The signing is hidden, so that no match on what it comes to is reduced by computing it.
  obtain ⟨sign?, hsign⟩ : ∃ f, f = t.sign? := ⟨_, rfl⟩
  rw [← hsign]
  apply follows_action_bind follows_getAction
  intro σ
  split
  . exact follows_fail _ _
  . next w _ =>
    have hsigner : Follows host Signing (onTrace (w.signer host.keyring)) :=
      follows_signer w (fun _ _ _ => trivial) (fun _ _ _ => trivial)
    apply follows_action_bind (follows_perform hsigner)
    intro key
    split
    . exact follows_fail _ _
    . split
      . split
        . exact follows_return _
        . exact follows_fail _ _
      . exact follows_fail _ _

theorem follows_compose (c : WriteCommand) (args : List String) (sender : Address) (price : Nat)
    (amount : Option Amount)
    : Follows host Arranging (compose host c args sender price amount).run := by
  unfold compose
  apply follows_action_bind (follows_reads _)
  intro intent
  apply follows_action_bind (follows_reads _)
  intro payload
  apply follows_action_bind (follows_ask fun _ => trivial)
  intro nonce
  apply follows_action_bind follows_getAction
  intro σ
  apply follows_action_bind (follows_perform ((follows_gasLimit _).mono arranging_of_signing))
  intro limit
  apply follows_action_bind ((follows_sign _ _).mono arranging_of_signing)
  intro signed
  exact follows_return _

theorem runs_prepare (host : Host ω) (c : WriteCommand) (args : List String) (σ : Session ω)
    : Runs host Arranging (discoverSymbols host σ).2 ((prepare host c args).run σ).2 := by
  rw [prepare_eq, Action.run_bind_ok (Action.run_perform _ σ)]
  refine follows_action_bind (follows_gather c) ?_ _
  intro (sender, price)
  apply follows_action_bind (follows_reads _)
  intro amount
  exact follows_compose c args sender price amount

theorem follows_prepare (c : WriteCommand) (args : List String)
    : Follows host Preparing (prepare host c args).run := by
  intro σ
  apply ((follows_discoverSymbols.mono preparing_of_probing) σ).trans
  exact (runs_prepare host c args σ).mono preparing_of_arranging

theorem eq_of_sign? {t : Transaction} {key : PrivateKey} {signed : SignedTransaction}
    (h : t.sign? key = some signed) : signed.transaction = t ∧ signed.sender = key.address := by
  obtain ⟨_, _, rfl⟩ := Option.map_eq_some_iff.mp h
  exact ⟨rfl, rfl⟩

theorem sign_eq_ok {name : String} {t : Transaction} {signed : SignedTransaction}
    (h : (sign host name t).run σ = (.ok signed, σ'))
    : ∃ w key,
        Entries.find? σ.plan.wallets name = some w ∧
        (w.signer host.keyring σ.trace).1 = some key ∧
        key.address = w.address ∧
        t.sign? key = some signed := by
  have hsender : ∀ key signed, t.sign? key = some signed → signed.sender = key.address :=
    fun _ _ h => (eq_of_sign? h).2
  unfold sign at h
  obtain ⟨sign?, hsign?⟩ : ∃ f, f = t.sign? := ⟨_, rfl⟩
  rw [← hsign?] at h hsender ⊢
  obtain ⟨_, _, hget, h⟩ := Action.exists_of_run_bind h
  cases hget
  split at h
  . exact absurd h Action.run_fail_ne_ok
  . next w hw =>
    obtain ⟨key?, _, hsigner, h⟩ := Action.exists_of_run_bind h
    have hkey : (w.signer host.keyring σ.trace).1 = key? :=
      congrArg Prod.fst (Action.eq_of_run_perform hsigner)
    split at h
    . exact absurd h Action.run_fail_ne_ok
    . next key =>
      split at h
      . next heq =>
        split at h
        . next haddress =>
          obtain ⟨rfl, _⟩ := Action.eq_of_run_pure h
          exact ⟨w, key, hw, hkey, (hsender _ _ heq).symm.trans haddress, heq⟩
        . exact absurd h Action.run_fail_ne_ok
      . exact absurd h Action.run_fail_ne_ok

theorem transaction_of_sign {name : String} {t : Transaction} {signed : SignedTransaction}
    (h : (sign host name t).run σ = (.ok signed, σ')) : signed.transaction = t := by
  obtain ⟨_, _, _, _, _, hsigned⟩ := sign_eq_ok h
  exact (eq_of_sign? hsigned).1

theorem signer_of_sign {name : String} {t : Transaction} {signed : SignedTransaction}
    (h : (sign host name t).run σ = (.ok signed, σ'))
    : σ.plan.wallets.addressOf name = .ok signed.sender := by
  obtain ⟨w, key, hw, _, haddress, hsigned⟩ := sign_eq_ok h
  rw [(eq_of_sign? hsigned).2, haddress]
  unfold Wallets.addressOf
  rw [hw]
  rfl

theorem gasLimit_le {d : Draft} {limit : Nat} (h : gasLimit host d σ = (limit, σ'))
    : limit ≤ σ.plan.config.gasLimit := by
  have hlimit : (gasLimit host d σ).1 = limit := by rw [h]
  rw [← hlimit]
  unfold gasLimit
  simp only [bind, StateT.bind, Action.get_apply]
  split
  split
  . split
    . next hlt => exact Nat.le_of_lt hlt
    . exact Nat.le_refl _
  . exact Nat.le_refl _

def offered (configured : Nat) : Result Nat → Nat
  | .ok suggested => max configured suggested
  | .error _ => configured

theorem offered_ok (configured suggested : Nat)
    : (if configured < suggested then suggested else configured)
        =
      offered configured (.ok suggested) := by
  show _ = max configured suggested
  split <;> omega

theorem gasPrice_spec {price : Nat} (h : gasPrice host σ = (price, σ'))
    : ∃ answer,
        price = offered σ.plan.config.gasPrice answer ∧
        σ'.plan = σ.plan ∧
        σ'.trace.exchanges = ⟨σ.trace.clock, .gasPrice, answer⟩ :: σ.trace.exchanges := by
  have hask : (ask host .gasPrice).run σ
      = ((host.node.ask .gasPrice σ.trace.world).1, σ.after host (.ask .gasPrice)) := rfl
  have hexchanges : (σ.after host (.ask .gasPrice)).trace.exchanges
      = ⟨σ.trace.clock, .gasPrice, (host.node.ask .gasPrice σ.trace.world).1⟩
        :: σ.trace.exchanges := rfl
  unfold gasPrice at h
  simp only [bind, StateT.bind, Action.get_apply, Action.outcome, hask] at h
  cases hanswer : (host.node.ask .gasPrice σ.trace.world).1 with
  | ok suggested =>
    simp only [hanswer] at h hexchanges
    obtain ⟨rfl, rfl⟩ := Prod.mk.inj h
    exact ⟨.ok suggested, offered_ok _ _, rfl, hexchanges⟩
  | error e =>
    simp only [hanswer] at h hexchanges
    obtain ⟨rfl, rfl⟩ := Prod.mk.inj h
    exact ⟨.error e, rfl, rfl, hexchanges⟩

theorem prepare_stages {c : WriteCommand} {args : List String} {r : Ready}
    (h : (prepare host c args).run σ = (.ok r, σ'))
    : ∃ (σ₁ σ₂ : Session ω) (amount : Option Amount) (payload : Payload) (price limit : Nat),
        Runs host Gathering σ σ₁ ∧
        gasPrice host σ₁ = (price, σ₂) ∧
        σ₂.plan.wallets.addressOf c.wallet = .ok r.sender ∧
        amountOf c args σ₂.plan = .ok amount ∧
        σ₂.plan.intent c args amount = .ok r.intent ∧
        σ₂.plan.payload c args r.sender r.intent = .ok payload ∧
        (host.node.ask (.nonce r.sender) σ₂.trace.world).1 = .ok r.nonce ∧
        Runs host Signing (σ₂.after host (.ask (.nonce r.sender))) σ' ∧
        limit ≤ σ₂.plan.config.gasLimit ∧
        r.signed.transaction
          =
        Draft.withGas
          { sender := r.sender, nonce := r.nonce, gasPrice := price,
            chain := σ₂.plan.config.chainId, payload } limit := by
  unfold prepare at h
  obtain ⟨_, σ₁, hdiscover, h⟩ := Action.exists_of_run_bind h
  obtain ⟨sender, _, hreadsender, h⟩ := Action.exists_of_run_bind h
  obtain ⟨hsender, rfl⟩ := of_run_reads hreadsender
  obtain ⟨_, σ₂, hrefresh, h⟩ := Action.exists_of_run_bind h
  obtain ⟨price, σ₃, hprice, h⟩ := Action.exists_of_run_bind h
  obtain ⟨amount, _, hreadamount, h⟩ := Action.exists_of_run_bind h
  obtain ⟨hamount, rfl⟩ := of_run_reads hreadamount
  obtain ⟨intent, _, hreadintent, h⟩ := Action.exists_of_run_bind h
  obtain ⟨hintent, rfl⟩ := of_run_reads hreadintent
  obtain ⟨payload, _, hreadpayload, h⟩ := Action.exists_of_run_bind h
  obtain ⟨hpayload, rfl⟩ := of_run_reads hreadpayload
  obtain ⟨nonce, _, hask, h⟩ := Action.exists_of_run_bind h
  obtain ⟨hnonce, rfl⟩ := of_run_ask hask
  obtain ⟨σ₅, _, hget, h⟩ := Action.exists_of_run_bind h
  cases hget
  obtain ⟨limit, σ₆, hlimit, h⟩ := Action.exists_of_run_bind h
  obtain ⟨signed, σ₇, hsign, h⟩ := Action.exists_of_run_bind h
  obtain ⟨rfl, rfl⟩ := Action.eq_of_run_pure h
  have hruns₁ : Runs host Gathering σ σ₁ :=
    ((follows_perform follows_discoverSymbols).mono gathering_of_probing).runs hdiscover
  have hruns₂ : Runs host Gathering σ₁ σ₂ :=
    (follows_refreshBalances (fun _ _ => trivial) (fun _ _ _ => trivial) _).runs hrefresh
  have hruns₃ : Runs host Preparing σ₂ σ₃ := (follows_perform follows_gasPrice).runs hprice
  have hruns₄ := (follows_perform (follows_gasLimit _)).runs hlimit
  have hruns₅ := (follows_sign _ _).runs hsign
  -- Everything but the wallet's address was read off `σ₃`, and nothing changes the address.
  refine ⟨σ₂, σ₃, amount, payload, price, limit, hruns₁.trans hruns₂,
    Action.eq_of_run_perform hprice, ?_, hamount, hintent, hpayload, hnonce, hruns₄.trans hruns₅,
    ?_, transaction_of_sign hsign⟩
  . rw [((hruns₂.mono preparing_of_gathering).trans hruns₃).like.wallets]
    exact hsender
  . show limit ≤ (σ₃.after host (.ask (.nonce sender))).plan.config.gasLimit
    exact gasLimit_le (Action.eq_of_run_perform hlimit)

theorem prepare_spec {c : WriteCommand} {args : List String} {r : Ready}
    (h : (prepare host c args).run σ = (.ok r, σ'))
    : ∃ (σ₁ : Session ω) (amount : Option Amount) (payload : Payload) (gasPrice chain limit : Nat),
        Runs host Preparing σ σ₁ ∧
        σ₁.plan.wallets.addressOf c.wallet = .ok r.sender ∧
        σ₁.plan.intent c args amount = .ok r.intent ∧
        σ₁.plan.payload c args r.sender r.intent = .ok payload ∧
        (host.node.ask (.nonce r.sender) σ₁.trace.world).1 = .ok r.nonce ∧
        Runs host Preparing (σ₁.after host (.ask (.nonce r.sender))) σ' ∧
        r.signed.transaction
          =
        Draft.withGas { sender := r.sender, nonce := r.nonce, gasPrice, chain, payload } limit := by
  obtain ⟨σ₁, σ₂, amount, payload, price, limit, hruns₁, hprice, hsender, _, hintent, hpayload,
    hnonce, hruns₂, _, ht⟩ := prepare_stages h
  exact ⟨σ₂, amount, payload, price, _, limit,
    (hruns₁.mono preparing_of_gathering).trans (follows_gasPrice.runs hprice), hsender, hintent,
    hpayload, hnonce, (hruns₂.mono arranging_of_signing).mono preparing_of_arranging, ht⟩

def broadcast? : Exchange → Option (SignedTransaction × Result Hash)
  | ⟨_, .send t, answer⟩ => some (t, answer)
  | _ => none

def broadcasts (xs : List Exchange) : List (SignedTransaction × Result Hash) :=
  xs.filterMap broadcast?

theorem broadcasts_append (xs ys : List Exchange)
    : broadcasts (xs ++ ys) = broadcasts xs ++ broadcasts ys :=
  List.filterMap_append ..

theorem broadcasts_eq_nil {xs : List Exchange} (h : ∀ x ∈ xs, ∀ t, x.request ≠ .send t)
    : broadcasts xs = [] := by
  unfold broadcasts
  rw [List.filterMap_eq_nil_iff]
  intro x hx
  unfold broadcast?
  split
  . exact absurd rfl (h _ hx _)
  . rfl

theorem Runs.broadcasts {Allowed : Session ω → Event → Prop} (h : Runs host Allowed σ σ')
    (hno : ∀ σ t, ¬ Allowed σ (.ask (.send t)))
    : ∃ new, σ'.trace.exchanges = new ++ σ.trace.exchanges ∧ Session.broadcasts new = [] := by
  obtain ⟨new, hnew, hall⟩ := h.forall_request (P := fun r => ∀ t, r ≠ .send t) (by
    rintro σ₁ r hr t rfl
    exact hno σ₁ t hr)
  exact ⟨new, hnew, broadcasts_eq_nil hall⟩

theorem prepare_sender {c : WriteCommand} {args : List String} {r : Ready}
    (h : (prepare host c args).run σ = (.ok r, σ'))
    : σ.plan.wallets.addressOf c.wallet = .ok r.sender ∧ r.signed.transaction.nonce = r.nonce := by
  obtain ⟨σ₁, _, _, _, _, _, hruns, hsender, _, _, _, _, ht⟩ := prepare_spec h
  rw [hruns.like.wallets] at hsender
  rw [ht]
  exact ⟨hsender, rfl⟩

theorem sign_of_prepare {c : WriteCommand} {args : List String} {r : Ready}
    (h : (prepare host c args).run σ = (.ok r, σ'))
    : ∃ σ₁ t, Runs host Preparing σ σ₁ ∧ (sign host c.wallet t).run σ₁ = (.ok r.signed, σ') := by
  rw [prepare_eq] at h
  obtain ⟨_, _, hruns, h⟩ := (Runs.nil σ).of_run_bind
    (follows_perform (follows_discoverSymbols.mono preparing_of_probing)) h
  obtain ⟨⟨sender, price⟩, _, hruns, h⟩ := hruns.of_run_bind
    ((follows_gather c).mono preparing_of_arranging) h
  obtain ⟨amount, _, hruns, h⟩ := hruns.of_run_bind (follows_reads _) h
  unfold compose at h
  obtain ⟨intent, _, hruns, h⟩ := hruns.of_run_bind (follows_reads _) h
  obtain ⟨payload, _, hruns, h⟩ := hruns.of_run_bind (follows_reads _) h
  have hask : Follows host Preparing (ask host (.nonce sender)).run := follows_ask fun _ => trivial
  obtain ⟨nonce, _, hruns, h⟩ := hruns.of_run_bind hask h
  obtain ⟨_, _, hruns, h⟩ := hruns.of_run_bind follows_getAction h
  obtain ⟨limit, σ₁, hruns, h⟩ := hruns.of_run_bind
    (follows_perform ((follows_gasLimit _).mono fun σ e he =>
      preparing_of_arranging σ e (arranging_of_signing σ e he))) h
  obtain ⟨signed, _, hsign, h⟩ := Action.exists_of_run_bind h
  obtain ⟨rfl, rfl⟩ := Action.eq_of_run_pure h
  exact ⟨σ₁, _, hruns, hsign⟩

theorem prepare_signer {c : WriteCommand} {args : List String} {r : Ready}
    (h : (prepare host c args).run σ = (.ok r, σ')) : r.signed.sender = r.sender := by
  obtain ⟨σ₁, t, hruns, hsign⟩ := sign_of_prepare h
  have hsigner := signer_of_sign hsign
  rw [hruns.like.wallets, (prepare_sender h).1] at hsigner
  exact (Except.ok.inj hsigner).symm

theorem prepare_exchanges {c : WriteCommand} {args : List String} {r : Ready}
    (h : (prepare host c args).run σ = (.ok r, σ'))
    : ∃ new,
        σ'.trace.exchanges = new ++ σ.trace.exchanges ∧
        broadcasts new = [] ∧
        ∃ time, ⟨time, .nonce r.sender, .ok r.nonce⟩ ∈ new := by
  obtain ⟨σ₁, _, _, _, _, _, hruns₁, _, _, _, hnonce, hruns₂, _⟩ := prepare_spec h
  -- Nothing is sent on either side of the question for the nonce.
  obtain ⟨new₁, hnew₁, hquiet₁⟩ := hruns₁.broadcasts (fun _ _ h => h)
  obtain ⟨new₂, hnew₂, hquiet₂⟩ := hruns₂.broadcasts (fun _ _ h => h)
  have hask : (σ₁.after host (.ask (.nonce r.sender))).trace.exchanges
      = ⟨σ₁.trace.clock, .nonce r.sender, .ok r.nonce⟩ :: σ₁.trace.exchanges := by
    rw [← hnonce]
    rfl
  refine ⟨new₂ ++ ⟨σ₁.trace.clock, .nonce r.sender, .ok r.nonce⟩ :: new₁, ?_, ?_,
    σ₁.trace.clock, ?_⟩
  . rw [hnew₂, hask, hnew₁, List.append_assoc, List.cons_append]
  . rw [broadcasts_append, hquiet₂]
    exact hquiet₁
  . exact List.mem_append_right _ (List.mem_cons_self ..)

theorem prepare_deploys {c : WriteCommand} {args : List String} {r : Ready}
    (h : (prepare host c args).run σ = (.ok r, σ'))
    : match r.intent with
      | .deploy id _ =>
        r.signed.transaction.recipient = none ∧ c.target = some id ∧
          σ.plan.isDeployed id = false ∧ (σ'.plan.catalogue.instance? id).isSome
      | _ => r.signed.transaction.recipient.isSome := by
  obtain ⟨σ₁, _, payload, _, _, _, hruns₁, _, hintent, hpayload, _, hruns₂, ht⟩ := prepare_spec h
  have hrecipient : r.signed.transaction.recipient = payload.recipient := by rw [ht]; rfl
  have hpay := Plan.recipient_of_payload _ hpayload
  rw [hrecipient]
  cases hr : r.intent with
  | deploy id value =>
    rw [hr] at hpay hintent
    obtain ⟨htarget, hundeployed⟩ := Plan.undeployed_of_intent hintent
    refine ⟨hpay.1, htarget, ?_, ?_⟩
    . rw [isDeployed_eq] at hundeployed ⊢
      rwa [hruns₁.address? (fun _ _ _ h => h)] at hundeployed
    . rw [hruns₂.like.instance?_isSome]
      exact hpay.2
  | _ =>
    rw [hr] at hpay
    exact hpay

theorem deploys_of_prepare {c : WriteCommand} {args : List String} {r : Ready}
    (h : (prepare host c args).run σ = (.ok r, σ'))
    (hnone : r.signed.transaction.recipient = none)
    : ∃ id value,
        r.intent = .deploy id value ∧
        c.target = some id ∧
        σ.plan.isDeployed id = false ∧
        (σ'.plan.catalogue.instance? id).isSome := by
  have hdeploys := prepare_deploys h
  cases hintent : r.intent with
  | deploy id value =>
    rw [hintent] at hdeploys
    exact ⟨id, value, rfl, hdeploys.2⟩
  | _ =>
    rw [hintent] at hdeploys
    dsimp only at hdeploys
    rw [hnone] at hdeploys
    cases hdeploys

theorem run_settle (host : Host ω) (c : WriteCommand) (r : Ready) (hash : Hash) (σ : Session ω)
    : ∃ text,
        (settle host c r hash).run σ
          =
        (.ok hash,
          match r.intent with
          | .deploy id _ =>
            (deployed host id (r.sender.create r.nonce) (σ.after host (.log .info text))).2
          | _ => σ.after host (.log .info text)) := by
  unfold settle
  cases r.intent <;> exact ⟨_, rfl⟩

theorem view_of_probing {r : Request} (h : Probing σ (.ask r)) : ∃ call, r = .view call := by
  cases r with
  | view call => exact ⟨call, rfl⟩
  | _ => exact h.elim

theorem run_deployed (host : Host ω) (id : Nat) (a : Address) (σ : Session ω)
    : ∃ text,
        (deployed host id a σ).2
          =
        (fetchSymbol host id
          (((σ.after host (.log .info text)).after host (.address id a)).after host
            (.probe id))).2 :=
  ⟨_, rfl⟩

theorem runs_deployed (host : Host ω) (id : Nat) (a : Address) (σ : Session ω)
    : ∃ text,
        Runs host Probing
          (((σ.after host (.log .info text)).after host (.address id a)).after host (.probe id))
          (deployed host id a σ).2 :=
  ⟨_, follows_fetchSymbol id _⟩

theorem address?_deployed (host : Host ω) (id : Nat) (a : Address) (σ : Session ω) (id' : Nat)
    : (deployed host id a σ).2.address? id'
        =
      if id = id' then (σ.plan.catalogue.instance? id').map fun _ => a else σ.address? id' := by
  obtain ⟨text, hruns⟩ := runs_deployed host id a σ
  rw [hruns.address? (fun _ _ _ h => h.elim)]
  rw [after_address? (by intros; simp)]
  rw [address?_address]
  rfl

theorem settle_spec (host : Host ω) (c : WriteCommand) (r : Ready) (hash : Hash) (σ : Session ω)
    : ∃ (σ' : Session ω) (new : List Exchange),
        (settle host c r hash).run σ = (.ok hash, σ') ∧
        σ'.trace.exchanges = new ++ σ.trace.exchanges ∧
        (∀ x ∈ new, ∃ call, x.request = .view call) ∧
        ∀ id,
          σ'.address? id
            =
          match r.intent with
          | .deploy id' _ =>
            if id' = id then
              (σ.plan.catalogue.instance? id).map fun _ => r.sender.create r.nonce
            else
              σ.address? id
          | _ => σ.address? id := by
  obtain ⟨text, hrun⟩ := run_settle host c r hash σ
  cases hintent : r.intent with
  | deploy id value =>
    rw [hintent] at hrun
    obtain ⟨text', hruns⟩ := runs_deployed host id (r.sender.create r.nonce)
      (σ.after host (.log .info text))
    obtain ⟨new, hnew, hviews⟩ := hruns.forall_request fun _ _ => view_of_probing
    refine ⟨_, new, hrun, hnew, hviews, ?_⟩
    intro id'
    exact address?_deployed host id _ (σ.after host (.log .info text)) id'
  | _ =>
    rw [hintent] at hrun
    exact ⟨_, [], hrun, rfl, by simp, fun _ => rfl⟩

theorem broadcasts_of_views {xs : List Exchange} (h : ∀ x ∈ xs, ∃ call, x.request = .view call)
    : broadcasts xs = [] := by
  apply broadcasts_eq_nil
  intro x hx t ht
  obtain ⟨call, hcall⟩ := h x hx
  rw [ht] at hcall
  cases hcall

theorem run_send (host : Host ω) (r : Ready) (σ : Session ω)
    : ∃ note,
        (send host r).run σ
          =
        ((host.node.ask (.send r.signed) σ.trace.world).1.mapError (Report.attach note),
          σ.after host (.ask (.send r.signed))) :=
  ⟨_, rfl⟩

theorem submitWrite_of_error {c : WriteCommand} {args : List String} {e : Fault}
    (h : (prepare host c args).run σ = (.error e, σ'))
    : (submitWrite host c args).run σ = (.error e, σ') := by
  rw [submitWrite_eq]
  exact Action.run_bind_error h

theorem submitWrite_of_accepted {c : WriteCommand} {args : List String} {r : Ready} {hash : Hash}
    (h : (prepare host c args).run σ = (.ok r, σ'))
    (hanswer : (host.node.ask (.send r.signed) σ'.trace.world).1 = .ok hash)
    : (submitWrite host c args).run σ
        =
      (settle host c r hash).run (σ'.after host (.ask (.send r.signed))) := by
  obtain ⟨note, hsend⟩ := run_send host r σ'
  rw [hanswer] at hsend
  rw [submitWrite_eq, Action.run_bind_ok h]
  exact Action.run_bind_ok hsend

theorem submitWrite_cases (host : Host ω) (c : WriteCommand) (args : List String) (σ : Session ω)
    : (∃ e σ', (prepare host c args).run σ = (.error e, σ') ∧
        (submitWrite host c args).run σ = (.error e, σ')) ∨
      (∃ r σ₁, (prepare host c args).run σ = (.ok r, σ₁) ∧
        ((∃ e e', (host.node.ask (.send r.signed) σ₁.trace.world).1 = .error e ∧
            (submitWrite host c args).run σ = (.error e', σ₁.after host (.ask (.send r.signed)))) ∨
         (∃ hash, (host.node.ask (.send r.signed) σ₁.trace.world).1 = .ok hash ∧
            (submitWrite host c args).run σ
              =
            (settle host c r hash).run (σ₁.after host (.ask (.send r.signed)))))) := by
  cases hprepare : (prepare host c args).run σ with
  | mk result σ₁ =>
    cases result with
    | error e => exact .inl ⟨e, σ₁, rfl, submitWrite_of_error hprepare⟩
    | ok r =>
      refine .inr ⟨r, σ₁, rfl, ?_⟩
      cases hanswer : (host.node.ask (.send r.signed) σ₁.trace.world).1 with
      | error e =>
        obtain ⟨note, hsend⟩ := run_send host r σ₁
        rw [hanswer] at hsend
        rw [submitWrite_eq, Action.run_bind_ok hprepare]
        exact .inl ⟨e, _, rfl, Action.run_bind_error hsend⟩
      | ok hash => exact .inr ⟨hash, rfl, submitWrite_of_accepted hprepare hanswer⟩

theorem runWrite_of_ok {c : WriteCommand} {args : List String} {hash : Hash}
    (h : (submitWrite host c args).run σ = (.ok hash, σ'))
    : runWrite host c args σ
        =
      ({ command := c.name, result := .ok (.string (transactionText hash)),
         transaction := some hash }, σ') := by
  unfold runWrite
  simp only [bind, StateT.bind, Action.outcome, h]
  rfl

theorem runWrite_of_error {c : WriteCommand} {args : List String} {e : Fault}
    (h : (submitWrite host c args).run σ = (.error e, σ'))
    : runWrite host c args σ = ({ command := c.name, result := .error e }, σ') := by
  unfold runWrite
  simp only [bind, StateT.bind, Action.outcome, h]
  rfl

theorem runs_runWrite {Allowed : Session ω → Event → Prop} {c : WriteCommand} {args : List String}
    (hprepare : Runs host Allowed σ ((prepare host c args).run σ).2)
    (hsend : ∀ r σ₁, (prepare host c args).run σ = (.ok r, σ₁) →
      Allowed σ₁ (.ask (.send r.signed)))
    (hsettle : ∀ r σ₁ hash, (prepare host c args).run σ = (.ok r, σ₁) →
      (host.node.ask (.send r.signed) σ₁.trace.world).1 = .ok hash →
      Runs host Allowed (σ₁.after host (.ask (.send r.signed)))
        ((settle host c r hash).run (σ₁.after host (.ask (.send r.signed)))).2)
    : Runs host Allowed σ (runWrite host c args σ).2 := by
  rcases submitWrite_cases host c args σ with ⟨e, σ₁, hready, hrun⟩ |
    ⟨r, σ₁, hready, ⟨e, e', hanswer, hrun⟩ | ⟨hash, hanswer, hrun⟩⟩
  . rw [hready] at hprepare
    rw [runWrite_of_error hrun]
    exact hprepare
  . rw [hready] at hprepare
    rw [runWrite_of_error hrun]
    exact hprepare.trans (.single (.ask (.send r.signed)) (hsend r σ₁ hready))
  . rw [hready] at hprepare
    have hsettled := hsettle r σ₁ hash hready hanswer
    obtain ⟨text, hend⟩ := run_settle host c r hash (σ₁.after host (.ask (.send r.signed)))
    rw [hend] at hrun hsettled
    rw [runWrite_of_ok hrun]
    exact hprepare.trans (.cons (.ask (.send r.signed)) (hsend r σ₁ hready) hsettled)

/--
What is known of a write that came to the outcome `o` and asked the node for `new`, the newest
first.
-/
structure Wrote (c : WriteCommand) (σ : Session ω) (o : Outcome) (σ' : Session ω)
    (new : List Exchange) : Prop where
  exchanges : σ'.trace.exchanges = new ++ σ.trace.exchanges
  once : (broadcasts new).length ≤ 1
  /-- The hash is the one that the node told. -/
  sent : ∀ hash,
    o.result = .ok (.string ("tx:" ++ Text.hexPrefixed hash)) ∧ o.transaction = some hash
      ↔
    ∃ t, (t, .ok hash) ∈ broadcasts new
  succeeded : ∀ v, o.result = .ok v → ∃ hash, o.transaction = some hash ∧
    v = .string ("tx:" ++ Text.hexPrefixed hash)
  failed : ∀ e, o.result = .error e → o.transaction = none ∧
    (∀ t hash, (t, .ok hash) ∉ broadcasts new) ∧ ∀ id, σ'.address? id = σ.address? id
  /-- A transaction with a recipient deploys nothing. -/
  called : ∀ t hash, (t, .ok hash) ∈ broadcasts new → t.transaction.recipient.isSome →
    ∀ id, σ'.address? id = σ.address? id
  /-- The nonce is the one that the node told for the sender. -/
  deployed : ∀ t hash, (t, .ok hash) ∈ broadcasts new → t.transaction.recipient = none →
    ∃ id sender,
      c.target = some id ∧
      σ.plan.isDeployed id = false ∧
      σ.plan.wallets.addressOf c.wallet = .ok sender ∧
      (∃ time, ⟨time, .nonce sender, .ok t.transaction.nonce⟩ ∈ new) ∧
      ∀ id', σ'.address? id' =
        if id' = id then some (sender.create t.transaction.nonce) else σ.address? id'

theorem wrote_of_error {c : WriteCommand} {e : Fault} {new : List Exchange}
    (hnew : σ'.trace.exchanges = new ++ σ.trace.exchanges) (honce : (broadcasts new).length ≤ 1)
    (hno : ∀ t hash, (t, .ok hash) ∉ broadcasts new) (hsame : ∀ id, σ'.address? id = σ.address? id)
    : Wrote c σ { command := c.name, result := .error e } σ' new where
  exchanges := hnew
  once := honce
  sent hash := by
    constructor
    . intro ⟨hresult, _⟩
      cases hresult
    . intro ⟨t, ht⟩
      exact absurd ht (hno t hash)
  succeeded v hv := by cases hv
  failed _ _ := ⟨rfl, hno, hsame⟩
  called t hash ht := absurd ht (hno t hash)
  deployed t hash ht := absurd ht (hno t hash)

theorem wrote_of_unsent (c : WriteCommand) (e : Fault) (h : Runs host Preparing σ σ')
    : ∃ new, Wrote c σ { command := c.name, result := .error e } σ' new := by
  obtain ⟨new, hnew, hquiet⟩ := h.broadcasts (fun _ _ h => h)
  refine ⟨new, wrote_of_error hnew ?_ ?_ (h.address? fun _ _ _ h => h)⟩
  . rw [hquiet]
    exact Nat.zero_le _
  . rw [hquiet]
    intros
    exact List.not_mem_nil

theorem send_exchanges {c : WriteCommand} {args : List String} {r : Ready} {answer : Result Hash}
    (h : (prepare host c args).run σ = (.ok r, σ'))
    (hanswer : (host.node.ask (.send r.signed) σ'.trace.world).1 = answer)
    : ∃ new,
        (σ'.after host (.ask (.send r.signed))).trace.exchanges = new ++ σ.trace.exchanges ∧
        broadcasts new = [(r.signed, answer)] ∧
        ∃ time, ⟨time, .nonce r.sender, .ok r.nonce⟩ ∈ new := by
  obtain ⟨new, hnew, hquiet, time, hnonce⟩ := prepare_exchanges h
  refine ⟨⟨σ'.trace.clock, .send r.signed, answer⟩ :: new, ?_, ?_, time, ?_⟩
  . rw [← hanswer]
    show _ :: σ'.trace.exchanges = _
    rw [hnew]
    rfl
  . have hcons : broadcasts (⟨σ'.trace.clock, .send r.signed, answer⟩ :: new)
        = (r.signed, answer) :: broadcasts new := rfl
    rw [hcons, hquiet]
  . exact List.mem_cons_of_mem _ hnonce

theorem wrote_of_refused {c : WriteCommand} {args : List String} {r : Ready} {e : Fault}
    (e' : Fault) (h : (prepare host c args).run σ = (.ok r, σ'))
    (hanswer : (host.node.ask (.send r.signed) σ'.trace.world).1 = .error e)
    : ∃ new,
        Wrote c σ { command := c.name, result := .error e' }
          (σ'.after host (.ask (.send r.signed))) new := by
  obtain ⟨new, hnew, hsends, _⟩ := send_exchanges h hanswer
  refine ⟨new, wrote_of_error hnew ?_ ?_ ?_⟩
  . rw [hsends]
    exact Nat.le_refl _
  . rw [hsends]
    intro t hash ht
    cases List.mem_singleton.mp ht
  . exact ((follows_prepare c args).runs h).address? (fun _ _ _ h => h)

theorem wrote_of_accepted {c : WriteCommand} {args : List String} {r : Ready} {hash : Hash}
    (h : (prepare host c args).run σ = (.ok r, σ'))
    (hanswer : (host.node.ask (.send r.signed) σ'.trace.world).1 = .ok hash)
    : ∃ σ'' new,
        (settle host c r hash).run (σ'.after host (.ask (.send r.signed))) = (.ok hash, σ'') ∧
        Wrote c σ
          { command := c.name, result := .ok (.string (transactionText hash)),
            transaction := some hash } σ'' new := by
  obtain ⟨new, hnew, hsends, time, hnonce⟩ := send_exchanges h hanswer
  obtain ⟨σ'', new', hrun, hnew', hviews, haddress⟩ :=
    settle_spec host c r hash (σ'.after host (.ask (.send r.signed)))
  have hbroadcasts : broadcasts (new' ++ new) = [(r.signed, .ok hash)] := by
    rw [broadcasts_append, broadcasts_of_views hviews, hsends]
    rfl
  have hsame : ∀ id, σ'.address? id = σ.address? id :=
    ((follows_prepare c args).runs h).address? (fun _ _ _ h => h)
  have hdeploys := prepare_deploys h
  -- One transaction was broadcast, so that every clause is about this one.
  refine ⟨σ'', new' ++ new, hrun, ?_, ?_, ?_, ?_, ?_, ?_, ?_⟩
  . rw [hnew', hnew, List.append_assoc]
  . rw [hbroadcasts]
    exact Nat.le_refl _
  . intro hash'
    rw [hbroadcasts]
    constructor
    . rintro ⟨_, hhash⟩
      cases hhash
      exact ⟨r.signed, List.mem_singleton.mpr rfl⟩
    . rintro ⟨t, ht⟩
      cases List.mem_singleton.mp ht
      exact ⟨rfl, rfl⟩
  . intro v hv
    cases hv
    exact ⟨hash, rfl, rfl⟩
  . intro e he
    cases he
  . intro t hash' ht hsome id
    rw [hbroadcasts] at ht
    cases List.mem_singleton.mp ht
    rw [haddress]
    cases hintent : r.intent with
    | deploy id' value =>
      rw [hintent] at hdeploys
      rw [hdeploys.1] at hsome
      cases hsome
    | _ => exact hsame id
  . intro t hash' ht hnone
    rw [hbroadcasts] at ht
    cases List.mem_singleton.mp ht
    obtain ⟨hsender, hnonce'⟩ := prepare_sender h
    obtain ⟨id, value, hintent, htarget, hundeployed, hinstance⟩ := deploys_of_prepare h hnone
    rw [hnonce']
    refine ⟨id, r.sender, htarget, hundeployed, hsender,
      ⟨time, List.mem_append_right _ hnonce⟩, ?_⟩
    intro id'
    rw [haddress, hintent]
    dsimp only
    split
    . next heq =>
      subst heq
      rw [if_pos rfl]
      obtain ⟨i, hi⟩ := Option.isSome_iff_exists.mp hinstance
      show (σ'.plan.catalogue.instance? id).map _ = _
      rw [hi]
      rfl
    . next hne =>
      rw [if_neg (Ne.symm hne)]
      exact hsame id'

theorem exists_wrote (host : Host ω) (c : WriteCommand) (args : List String) (σ : Session ω)
    : ∃ o σ' new, runWrite host c args σ = (o, σ') ∧ Wrote c σ o σ' new := by
  rcases submitWrite_cases host c args σ with ⟨e, σ', hprepare, hrun⟩ |
    ⟨r, σ₁, hprepare, ⟨e, e', hanswer, hrun⟩ | ⟨hash, hanswer, hrun⟩⟩
  . obtain ⟨new, hwrote⟩ := wrote_of_unsent c e ((follows_prepare c args).runs hprepare)
    exact ⟨_, σ', new, runWrite_of_error hrun, hwrote⟩
  . obtain ⟨new, hwrote⟩ := wrote_of_refused e' hprepare hanswer
    exact ⟨_, _, new, runWrite_of_error hrun, hwrote⟩
  . obtain ⟨σ', new, hsettle, hwrote⟩ := wrote_of_accepted hprepare hanswer
    rw [hsettle] at hrun
    exact ⟨_, σ', new, runWrite_of_ok hrun, hwrote⟩

theorem wrote_of_run {c : WriteCommand} {args : List String} {o : Outcome}
    (h : runWrite host c args σ = (o, σ')) : ∃ new, Wrote c σ o σ' new := by
  obtain ⟨_, _, new, hrun, hwrote⟩ := exists_wrote host c args σ
  cases h.symm.trans hrun
  exact ⟨new, hwrote⟩

/--
A write broadcasts one transaction at most. Its result is the hash that the node answered with, and
it leaves the addresses of all instances alone unless it has deployed one.
-/
theorem runWrite_broadcast (host : Host ω) (c : WriteCommand) (args : List String) (σ : Session ω)
    : ∃ new, Wrote c σ (runWrite host c args σ).1 (runWrite host c args σ).2 new := by
  obtain ⟨o, σ', new, hrun, hwrote⟩ := exists_wrote host c args σ
  rw [hrun]
  exact ⟨new, hwrote⟩

theorem running_of_preparing (σ : Session ω) (e : Event) (h : Preparing σ e) : Running σ e := by
  unfold Preparing at h
  split at h
  all_goals trivial

theorem follows_settle (c : WriteCommand) (r : Ready) (hash : Hash)
    : Follows host Running (settle host c r hash).run := by
  intro σ
  obtain ⟨text, hrun⟩ := run_settle host c r hash σ
  rw [hrun]
  apply Runs.cons (.log .info text) trivial
  dsimp only
  split
  . next id value _ =>
    obtain ⟨text', hruns⟩ := runs_deployed host id (r.sender.create r.nonce)
      (σ.after host (.log .info text))
    apply Runs.cons (.log .info text') trivial
    apply Runs.cons (.address id _) trivial
    apply Runs.cons (.probe id) trivial
    apply hruns.mono
    intro σ₁ e he
    exact running_of_preparing σ₁ e (preparing_of_probing σ₁ e he)
  . exact .nil _

theorem follows_runWrite (c : WriteCommand) (args : List String)
    : Follows host Running (runWrite host c args) := by
  unfold runWrite
  apply follows_bind
  . show Follows host Running (submitWrite host c args).run
    rw [submitWrite_eq]
    apply follows_action_bind ((follows_prepare c args).mono running_of_preparing)
    intro r
    apply follows_action_bind (follows_mapError _ (follows_ask fun _ => trivial))
    intro hash
    exact follows_settle c r hash
  . intro result
    split <;> exact follows_pure _

end Runbook.Session
