import Runbook.Proofs.Engine.Reached

/-!
This module contains what becomes of writes whose instance is not deployed yet: whether or not they
name a method, they come to the creation of the instance's contract.
-/

namespace Runbook.Session

variable {ω : Type} {host : Host ω} {σ σ' : Session ω} {c : WriteCommand} {args : List String}
variable {id : Nat}

/--
What a write has made ready to send in the session `σ'`, having begun in `σ`, when its instance is
not deployed.
-/
structure Creating (c : WriteCommand) (args : List String) (id : Nat) (σ σ' : Session ω) (r : Ready)
    : Prop where
  like : σ.plan.Like σ'.plan
  undeployed : σ'.plan.isDeployed id = false
  sender : σ'.plan.wallets.addressOf c.wallet = .ok r.sender
  creates : ∃ amount, amountOf c args σ'.plan = .ok amount ∧
    ((∀ a, amount = some a → a.isToken = false) →
      r.intent = .deploy id (weiOf amount) ∧
      σ'.plan.Creates c args r.sender id r.signed.transaction.payload ∧
      r.signed.transaction.value = weiOf amount)

theorem prepare_creating {r : Ready} (htarget : c.target = some id)
    (hundeployed : σ.plan.isDeployed id = false)
    (h : (prepare host c args).run σ = (.ok r, σ')) : Creating c args id σ σ' r := by
  obtain ⟨σ₁, σ₂, amount, payload, price, limit, hgather, hprice, hsender, hamount, hintent,
    hpayload, _, hsigning, _, ht⟩ := prepare_stages h
  have hsigning : Runs host Signing σ₂ σ' := .cons (.ask (.nonce r.sender)) trivial hsigning
  have hruns : Runs host Preparing σ σ₂ :=
    (hgather.mono preparing_of_gathering).trans (follows_gasPrice.runs hprice)
  have hundeployed₂ : σ₂.plan.isDeployed id = false := by
    rw [isDeployed_eq, hruns.address? fun _ _ _ h => h, ← isDeployed_eq]
    exact hundeployed
  have hplan : σ'.plan = σ₂.plan := hsigning.plan_of_signing
  rw [← hplan] at hundeployed₂ hsender hamount hintent hpayload
  refine ⟨((follows_prepare c args).runs h).like, hundeployed₂, hsender, amount, hamount, ?_⟩
  intro hwei
  -- The three other intents need a command without an instance, tokens, or an instance that is
  -- deployed.
  have hdeploy : r.intent = .deploy id (weiOf amount) := by
    have hmeans := Plan.means_of_intent hintent
    generalize r.intent = intent at hmeans
    cases hmeans with
    | transfer hnone =>
      rw [htarget] at hnone
      cases hnone
    | deploy hsome =>
      rw [htarget] at hsome
      cases hsome
      rfl
    | tokens htoken =>
      rw [hwei _ rfl] at htoken
      cases htoken
    | method hsome hdeployed =>
      rw [htarget] at hsome
      cases hsome
      rw [hundeployed₂] at hdeployed
      cases hdeployed
  rw [hdeploy] at hpayload
  obtain ⟨hcreates, hvalue⟩ := Plan.creates_of_payload hpayload
  have hsent : r.signed.transaction.payload = payload := by rw [ht]; rfl
  rw [hsent]
  refine ⟨hdeploy, hcreates, ?_⟩
  rw [← hvalue, ← hsent]
  rfl

/--
A write whose instance is not deployed never calls a method of it. Unless its amount counts tokens,
it fails without having broadcast anything, or it broadcasts the one transaction that it has made
ready, which creates the contract of the instance from the command's parameters.
-/
theorem runWrite_undeployed (host : Host ω) (args : List String) (htarget : c.target = some id)
    (hundeployed : σ.plan.isDeployed id = false)
    : ∃ new,
        (runWrite host c args σ).2.trace.exchanges = new ++ σ.trace.exchanges ∧
        match (prepare host c args).run σ with
        | (.error e, _) => broadcasts new = [] ∧ (runWrite host c args σ).1.result = .error e
        | (.ok r, σ₁) =>
          (∃ answer, broadcasts new = [(r.signed, answer)]) ∧ Creating c args id σ σ₁ r := by
  obtain ⟨new, hnew, hsigned⟩ := exists_signed host c args σ
  refine ⟨new, hnew, ?_⟩
  cases hprepare : (prepare host c args).run σ with
  | mk result σ₁ =>
    rw [hprepare] at hsigned
    cases result with
    | error e =>
      rw [runWrite_of_error (submitWrite_of_error hprepare)]
      exact ⟨hsigned, rfl⟩
    | ok r => exact ⟨hsigned.1, prepare_creating htarget hundeployed hprepare⟩

theorem runWrite_mint
    : ∃ (σ : Session Unit),
        σ.Reachable ∧
        σ.plan.writes.find? "mint" = some mintCommand ∧
        mintCommand.method = some "mint" ∧
        mintCommand.target = some 0 ∧
        σ.plan.isDeployed 0 = false ∧
        ∀ (host : Host Unit) (args : List String), ∃ new,
          (runWrite host mintCommand args σ).2.trace.exchanges = new ++ σ.trace.exchanges ∧
          ∀ t answer, (t, answer) ∈ broadcasts new →
            t.transaction.recipient = none ∧
            t.transaction.value = 0 ∧
            t.transaction.data = launchBuild.bytecode := by
  obtain ⟨t, hchecked⟩ := exists_launch
  have hσ : Reachable { plan := launchPlan, trace := t } := .start hchecked t
  refine ⟨_, hσ, rfl, rfl, rfl, rfl, ?_⟩
  intro host args
  obtain ⟨new, hnew, hcases⟩ :=
    @runWrite_undeployed _ { plan := launchPlan, trace := t } mintCommand 0 host args rfl rfl
  refine ⟨new, hnew, ?_⟩
  intro signed answer hmem
  split at hcases
  . rw [hcases.1] at hmem
    cases hmem
  . next r σ₁ _ =>
    obtain ⟨⟨answer', hone⟩, hcreating⟩ := hcases
    rw [hone] at hmem
    obtain ⟨rfl, _⟩ := Prod.mk.inj (List.mem_singleton.mp hmem)
    obtain ⟨amount, hamount, hcreates⟩ := hcreating.creates
    cases hamount
    obtain ⟨-, ⟨hrecipient, build, values, hbuild, hvalues, hdeploys⟩, hvalue⟩ :=
      hcreates (by rintro a ⟨⟩)
    have hlaunch : launchPlan.catalogue.buildOf 0 = .ok launchBuild := rfl
    cases (hcreating.like.buildOf hlaunch).symm.trans hbuild
    cases hvalues
    refine ⟨hrecipient, hvalue, ?_⟩
    generalize hdata : r.signed.transaction.payload.data = data at hdeploys
    cases hdeploys with
    | bare => exact hdata
    | constructor h => cases h

section Mint

def obligingHost : Host Unit where
  node :=
    { ask := fun r w =>
        (match r with
          | .view _ => .ok []
          | .send _ => .ok [1]
          | .balance _ => .ok (0 : Nat)
          | .nonce _ => .ok (0 : Nat)
          | .gasPrice => .ok (0 : Nat)
          | .estimate _ => .ok (21000 : Nat)
          | .status _ => .ok none
          | .receipt _ => .ok none
          | .rpc _ _ => .ok .null, w) }
  keyring := silentHost.keyring
  policy := {}

def mintDraft (sender : Address) : Draft where
  sender := sender
  nonce := 0
  gasPrice := 8000000000
  chain := 1
  payload := { recipient := none, value := 0, data := launchBuild.bytecode }

def mintTransaction : Transaction :=
  (mintDraft alice.address).withGas 21000

def mintDigest : Nat :=
  70089547440936713590344762594252542339534592669827391926480762310941686423241

-- The digest and the signature are computed by proofs of their own, so that the kernel need not
-- remember what it has computed for the one while it computes the other.

theorem digest_mint : natOfBytes mintTransaction.digest = mintDigest := by
  decide +kernel

theorem isSome_sign_digest
    : (PrivateKey.sign?.go aliceKey mintDigest (.start aliceKey mintDigest) 8).isSome = true := by
  decide +kernel

theorem isSome_sign_mint : (mintTransaction.sign? aliceKey).isSome = true := by
  rw [Transaction.sign?, Option.isSome_map, PrivateKey.sign?, digest_mint]
  exact isSome_sign_digest

theorem run_sign {host : Host ω} {name : String} {w : Wallet} {key : PrivateKey} {t : Transaction}
    {signed : SignedTransaction} (hw : Entries.find? σ.plan.wallets name = some w)
    (hpassword : w.password = none) (hkey : w.credential = .embedded key)
    (hsign : t.sign? key = some signed) (hsender : signed.sender = w.address)
    : (sign host name t).run σ = (.ok signed, σ) := by
  unfold sign
  -- The signing is hidden, so that no match on what it comes to is reduced by computing it.
  obtain ⟨sign?, hsign?⟩ : ∃ f, f = t.sign? := ⟨_, rfl⟩
  rw [← hsign?] at hsign ⊢
  have hsigner
      : (Action.perform (onTrace (w.signer host.keyring))).run σ = (.ok (some key), σ) := by
    unfold Wallet.signer
    rw [hpassword, hkey]
    rfl
  refine (Action.run_bind_ok (Action.run_get σ)).trans ?_
  rw [hw]
  refine (Action.run_bind_ok hsigner).trans ?_
  dsimp only
  rw [hsign]
  dsimp only
  rw [if_pos hsender]
  rfl

/--
A host whose node tells the same of every transaction, and answers view calls by `views`.
-/
def mintingHost (views : ViewCall → Result Bytes) (status : Option Status)
    (receipt : Option Receipt) : Host Unit where
  node :=
    { ask := fun r w =>
        (match r with
          | .view call => views call
          | .send _ => .ok [1]
          | .balance _ => .ok (0 : Nat)
          | .nonce _ => .ok (0 : Nat)
          | .gasPrice => .ok (0 : Nat)
          | .estimate _ => .ok (21000 : Nat)
          | .status _ => .ok status
          | .receipt _ => .ok receipt
          | .rpc _ _ => .ok .null, w) }
  keyring := silentHost.keyring
  policy := {}

theorem prepare_mint (views : ViewCall → Result Bytes) (status : Option Status)
    (receipt : Option Receipt) (functions : List Abi.Function) {w : Wallet} {key : PrivateKey}
    {signed : SignedTransaction} (hpassword : w.password = none)
    (hkey : w.credential = .embedded key)
    (hsign : ((mintDraft w.address).withGas 21000).sign? key = some signed)
    (hsender : signed.sender = w.address) (t : Trace Unit)
    : ∃ σ', (prepare (mintingHost views status receipt) mintCommand []).run
          { plan := { launchPlanWith functions with wallets := [("alice", w)] }, trace := t }
        = (.ok { sender := w.address, nonce := 0, intent := .deploy 0 0, signed }, σ') := by
  let host : Host Unit := mintingHost views status receipt
  let p : Plan := { launchPlanWith functions with wallets := [("alice", w)] }
  let q : Plan := { p with wallets := p.wallets.setBalance "alice" 0 }
  obtain ⟨t₁, hdiscover⟩ : ∃ t₁,
      (Action.perform (discoverSymbols host)).run { plan := p, trace := t }
        = (.ok (), ⟨p, t₁, []⟩) :=
    ⟨_, rfl⟩
  have haddress : (reads (·.wallets.addressOf mintCommand.wallet)).run (⟨p, t₁, []⟩ : Session Unit)
      = (.ok w.address, ⟨p, t₁, []⟩) := rfl
  obtain ⟨t₂, hrefresh⟩ : ∃ t₂,
      (refreshBalances host (balancesOf mintCommand)).run ⟨p, t₁, []⟩
        = (.ok (), ⟨q, t₂, []⟩) :=
    ⟨_, rfl⟩
  obtain ⟨t₃, hprice⟩ : ∃ t₃,
      (Action.perform (gasPrice host)).run ⟨q, t₂, []⟩ = (.ok 8000000000, ⟨q, t₃, []⟩) :=
    ⟨_, rfl⟩
  have hamount : (reads (amountOf mintCommand [])).run (⟨q, t₃, []⟩ : Session Unit)
      = (.ok none, ⟨q, t₃, []⟩) := rfl
  have hintent : (reads (·.intent mintCommand [] none)).run (⟨q, t₃, []⟩ : Session Unit)
      = (.ok (.deploy 0 0), ⟨q, t₃, []⟩) := rfl
  have hpayload : (reads (·.payload mintCommand [] w.address (.deploy 0 0))).run
      (⟨q, t₃, []⟩ : Session Unit)
        = (.ok (mintDraft w.address).payload, ⟨q, t₃, []⟩) := rfl
  obtain ⟨t₄, hnonce⟩ : ∃ t₄,
      (ask host (.nonce w.address)).run ⟨q, t₃, []⟩ = (.ok (0 : Nat), ⟨q, t₄, []⟩) :=
    ⟨_, rfl⟩
  obtain ⟨t₅, hlimit⟩ : ∃ t₅,
      (Action.perform (gasLimit host (mintDraft w.address))).run ⟨q, t₄, []⟩
        = (.ok 21000, ⟨q, t₅, []⟩) :=
    ⟨_, rfl⟩
  have hsigned : (sign host mintCommand.wallet ((mintDraft w.address).withGas 21000)).run
      ⟨q, t₅, []⟩ = (.ok signed, ⟨q, t₅, []⟩) :=
    run_sign rfl hpassword hkey hsign hsender
  -- Every stage was run by itself, since together they are too much to evaluate.
  refine ⟨⟨q, t₅, []⟩, ?_⟩
  unfold prepare
  refine (Action.run_bind_ok hdiscover).trans ?_
  refine (Action.run_bind_ok haddress).trans ?_
  refine (Action.run_bind_ok hrefresh).trans ?_
  refine (Action.run_bind_ok hprice).trans ?_
  refine (Action.run_bind_ok hamount).trans ?_
  refine (Action.run_bind_ok hintent).trans ?_
  refine (Action.run_bind_ok hpayload).trans ?_
  refine (Action.run_bind_ok hnonce).trans ?_
  refine (Action.run_bind_ok (Action.run_get _)).trans ?_
  refine (Action.run_bind_ok hlimit).trans ?_
  exact (Action.run_bind_ok hsigned).trans rfl

theorem mint_creates
    : ∃ (σ : Session Unit) (new : List Exchange) (t : SignedTransaction) (answer : Result Hash),
        σ.Reachable ∧
        σ.plan.writes.find? "mint" = some mintCommand ∧
        mintCommand.method = some "mint" ∧
        mintCommand.value = none ∧
        mintCommand.target = some 0 ∧
        σ.plan.isDeployed 0 = false ∧
        (runWrite obligingHost mintCommand [] σ).1.isOk = true ∧
        (runWrite obligingHost mintCommand [] σ).2.trace.exchanges = new ++ σ.trace.exchanges ∧
        broadcasts new = [(t, answer)] ∧
        t.transaction.recipient = none := by
  obtain ⟨t, hchecked⟩ := exists_launch
  obtain ⟨signed, hsign⟩ := Option.isSome_iff_exists.mp isSome_sign_mint
  obtain ⟨htransaction, hsender⟩ := eq_of_sign? hsign
  let σ : Session Unit := { plan := launchPlan, trace := t }
  let r : Ready := { sender := alice.address, nonce := 0, intent := .deploy 0 0, signed }
  obtain ⟨σ₁, hprepare⟩ : ∃ σ₁, (prepare obligingHost mintCommand []).run σ = (.ok r, σ₁) :=
    @prepare_mint (fun _ => .ok []) none none launchBuild.interface.functions alice aliceKey signed
      rfl rfl hsign hsender t
  have hanswer : (obligingHost.node.ask (.send signed) σ₁.trace.world).1 = .ok [1] := rfl
  obtain ⟨σ₂, _, hsettle, _⟩ := wrote_of_accepted hprepare hanswer
  have hrun : (submitWrite obligingHost mintCommand []).run σ = (.ok [1], σ₂) :=
    (submitWrite_of_accepted hprepare hanswer).trans hsettle
  obtain ⟨new, hnew, hsigned⟩ := exists_signed obligingHost mintCommand [] σ
  rw [hprepare] at hsigned
  obtain ⟨⟨answer, hbroadcasts⟩, _⟩ := hsigned
  refine ⟨σ, new, signed, answer, .start hchecked t, rfl, rfl, rfl, rfl, rfl, ?_, hnew,
    hbroadcasts, ?_⟩
  . rw [runWrite_of_ok hrun]
    rfl
  . rw [htransaction]
    rfl

end Mint

end Runbook.Session
