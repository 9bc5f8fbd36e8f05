import Runbook.Proofs.Engine.Signed
import Runbook.Proofs.Engine.Waited

/-!
This module contains what the events of a command come from: which contracts it calls and where it
finds them, and what gives instances their addresses and symbols.
-/

namespace Runbook

variable {ω : Type}

def Intent.callee? : Intent → Option Nat
  | .tokens id _ _ | .method id _ _ => some id
  | .transfer _ _ | .deploy _ _ => none

theorem Plan.exists_deployed_of_payload {p : Plan} {c : WriteCommand} {args : List String}
    {sender : Address} {intent : Intent} {payload : Payload} {id : Nat}
    (h : p.payload c args sender intent = .ok payload) (hcallee : intent.callee? = some id)
    : ∃ a, (p.catalogue.instance? id).bind Instance.deployed? = some a ∧
        payload.recipient = some a := by
  cases intent with
  | transfer recipient value => cases hcallee
  | deploy id value => cases hcallee
  | tokens id recipient amount =>
    cases hcallee
    exact (callsTransfer_of_payload h).called
  | method id name value =>
    cases hcallee
    obtain ⟨build, _, h⟩ := bind_eq_ok.mp h
    obtain ⟨values, _, h⟩ := bind_eq_ok.mp h
    obtain ⟨f, _, h⟩ := bind_eq_ok.mp h
    obtain ⟨data, _, h⟩ := bind_eq_ok.mp h
    obtain ⟨a, hdeployed, rfl⟩ := eq_of_callPayload h
    exact ⟨a, hdeployed, rfl⟩

namespace Session

/--
The instance is deployed, and the address is its latest one.
-/
structure Located (σ : Session ω) (id : Nat) (a : Address) : Prop where
  address : σ.address? id = some a
  real : a.isZero = false

section Located

variable {σ : Session ω} {id : Nat} {a : Address}

theorem located_of_isDeployed (h : σ.plan.isDeployed id = true) (ha : σ.address? id = some a)
    : σ.Located id a := by
  refine ⟨ha, ?_⟩
  rw [isDeployed_eq, ha] at h
  simpa using h

theorem located_of_deployed?
    (h : (σ.plan.catalogue.instance? id).bind Instance.deployed? = some a) : σ.Located id a := by
  obtain ⟨i, hi, hdeployed⟩ := Option.bind_eq_some_iff.mp h
  unfold Instance.deployed? at hdeployed
  obtain ⟨haddress, hreal⟩ := Option.filter_eq_some_iff.mp hdeployed
  refine ⟨?_, by simpa using hreal⟩
  unfold address?
  rw [hi]
  exact haddress

theorem address?_of_viewCall {method : String} {sender : Option Address} {values : List Value}
    {call : ViewCall} {f : Abi.Function}
    (h : σ.plan.viewCall id method sender values = .ok (call, f))
    : σ.address? id = some call.recipient := by
  obtain ⟨recipient, data, haddress, _, rfl⟩ := eq_of_viewCall h
  exact haddress

end Located

/--
The view call is the one of the read command `name`, sent to where its instance is.
-/
structure Reads (name : String) (args : List String) (σ : Session ω) (call : ViewCall)
    (c : ReadCommand) : Prop where
  command : σ.plan.reads.find? name = some c
  made : ∃ sender values f, σ.plan.finalize c.name c.params args sender = .ok values ∧
    σ.plan.viewCall c.target c.method sender values = .ok (call, f)
  located : σ.Located c.target call.recipient

/--
The view call asks the instance for its token symbol, at its latest address.
-/
structure Asks (σ : Session ω) (call : ViewCall) (id : Nat) : Prop where
  made : ∃ f, σ.plan.viewCall id "symbol" none [] = .ok (call, f)
  address : σ.address? id = some call.recipient

/--
The transaction is the one that the write command `name` comes to. If it calls an instance, it is
sent to where that is.
-/
structure Sends (name : String) (args : List String) (σ : Session ω) (t : SignedTransaction)
    (c : WriteCommand) (intent : Intent) : Prop where
  command : σ.plan.writes.find? name = some c
  sender : σ.plan.wallets.addressOf c.wallet = .ok t.sender
  means : ∃ amount, amountOf c args σ.plan = .ok amount ∧
    σ.plan.intent c args amount = .ok intent
  payload : σ.plan.payload c args t.sender intent = .ok t.transaction.payload
  located : ∀ id, intent.callee? = some id → ∃ a, σ.Located id a ∧
    t.transaction.recipient = some a

/--
The node has just accepted the creation of a contract, which the write command `name` has sent for
its instance.
-/
structure Deploys (name : String) (σ : Session ω) (id : Nat) (a : Address) (t : SignedTransaction)
    : Prop where
  command : ∃ c, σ.plan.writes.find? name = some c ∧ c.target = some id
  creation : t.transaction.recipient = none
  accepted : ∃ time hash rest, σ.trace.exchanges = ⟨time, .send t, .ok hash⟩ :: rest
  address : a = t.sender.create t.transaction.nonce

/--
The node has just told, on the receipt for the one transaction that was accepted since `start`,
another contract address than the instance of the write command `name` has.
-/
structure Adopts (start : List Exchange) (name : String) (σ : Session ω) (id : Nat) (a : Address)
    (t : SignedTransaction) : Prop where
  command : ∃ c, σ.plan.writes.find? name = some c ∧ c.target = some id
  mined : ∃ time hash r earlier,
    σ.trace.exchanges = ⟨time, .receipt hash, .ok (some r)⟩ :: earlier ++ start ∧
    broadcasts earlier = [(t, .ok hash)] ∧
    r.success = true ∧
    r.contract = some a
  other : σ.address? id ≠ some a
  predicted : t.transaction.recipient = none →
    σ.address? id = some (t.sender.create t.transaction.nonce)

/--
Where an event comes from that happens while the command `name` runs, or a step that runs it; the
node was asked for `start` before.
-/
def Caused (start : List Exchange) (name : String) (args : List String) (σ : Session ω)
    : Event → Prop
  | .ask (.view call) =>
    (∃ c, Reads name args σ call c) ∨
      ∃ id, Asks σ call id ∧
        (call.recipient.isZero = false ∨
          ∃ t hash, (t, .ok hash) ∈ broadcasts σ.trace.exchanges ∧
            t.transaction.recipient = none ∧
            call.recipient = t.sender.create t.transaction.nonce)
  | .ask (.send t) => ∃ c intent, Sends name args σ t c intent
  | .address id a => ∃ t, Deploys name σ id a t ∨ Adopts start name σ id a t
  | .symbol _ symbol => ∃ told, symbol = some (Text.upper told)
  | _ => True

section Caused

variable {host : Host ω} {start : List Exchange} {name : String} {args : List String}
variable {σ σ' : Session ω}

theorem caused_of_arranging (σ : Session ω) (e : Event) (h : Arranging σ e)
    : Caused start name args σ e := by
  unfold Arranging at h
  split at h
  all_goals trivial

theorem caused_of_waiting {hash : Hash} (σ : Session ω) (e : Event) (h : Waiting hash σ e)
    : Caused start name args σ e := by
  unfold Waiting at h
  split at h
  all_goals trivial

theorem caused_readAs {c : ReadCommand} (hc : σ.plan.reads.find? name = some c)
    (hdeployed : σ.plan.isDeployed c.target = true) (sender : Option Address)
    : Runs host (Caused start name args) σ ((readAs host c args sender).run σ).2 ∧
        ((readAs host c args sender).run σ).2.plan = σ.plan := by
  have hreads : (reads (·.finalize c.name c.params args sender)).run σ
      = (σ.plan.finalize c.name c.params args sender, σ) := rfl
  unfold readAs
  cases hvalues : σ.plan.finalize c.name c.params args sender with
  | error e =>
    rw [hvalues] at hreads
    rw [Action.run_bind_error hreads]
    exact ⟨.nil σ, rfl⟩
  | ok values =>
    rw [hvalues] at hreads
    rw [Action.run_bind_ok hreads]
    constructor
    . apply runs_view
      intro call f hcall
      exact .inl ⟨c, hc, ⟨sender, values, f, hvalues, hcall⟩,
        located_of_isDeployed hdeployed (address?_of_viewCall hcall)⟩
    . rw [run_view]
      split <;> rfl

theorem caused_runRead {c : ReadCommand} (hc : σ.plan.reads.find? name = some c)
    : Runs host (Caused start name args) σ (runRead host c args σ).2 := by
  unfold runRead
  simp only [bind, StateT.bind, Action.get_apply]
  split
  . next hdeployed =>
    refine (@runs_forEachWallet _ _ _ _ (fun σ₁ => σ₁.plan = σ.plan) _ _ ?_ c.wallets rfl).1
    intro σ₁ sender hplan
    rw [← hplan]
    apply caused_readAs
    . rw [hplan]
      exact hc
    . rw [hplan]
      exact hdeployed
  . exact .nil σ

theorem caused_discoverSymbols
    : Runs host (Caused start name args) σ (discoverSymbols host σ).2 := by
  refine (@runs_discover _ _ _ _ (fun _ => True) ?_ σ.plan.catalogue.ids trivial).1
  intro σ₁ id _ hunprobed
  have hdeployed : (σ₁.after host (.probe id)).plan.isDeployed id = true :=
    (Bool.and_eq_true_iff.mp hunprobed).2
  refine ⟨.cons (.probe id) trivial (runs_fetchSymbol ?_ (fun _ _ _ => trivial) ?_), trivial⟩
  . intro call f hcall
    have haddress := address?_of_viewCall hcall
    exact .inr ⟨id, ⟨⟨f, hcall⟩, haddress⟩, .inl (located_of_isDeployed hdeployed haddress).real⟩
  . exact fun _ symbol => ⟨symbol, rfl⟩

theorem sends_of_prepare {c : WriteCommand} {r : Ready} (hc : σ.plan.writes.find? name = some c)
    (h : (prepare host c args).run σ = (.ok r, σ'))
    : Sends name args σ' r.signed c r.intent := by
  obtain ⟨σ₁, σ₂, amount, payload, price, limit, _, _, _, hamount, hintent, hpayload, _, hsigning,
    _, ht⟩ := prepare_stages h
  have hplan : σ'.plan = σ₂.plan := hsigning.plan_of_signing
  have hlike := ((follows_prepare c args).runs h).like
  have hsent : r.signed.transaction.payload = payload := by rw [ht]; rfl
  rw [← hplan, ← prepare_signer h, ← hsent] at hpayload
  rw [← hplan] at hamount hintent
  refine ⟨?_, ?_, ⟨amount, hamount, hintent⟩, hpayload, ?_⟩
  . rw [hlike.writes]
    exact hc
  . rw [hlike.wallets, prepare_signer h]
    exact (prepare_sender h).1
  . intro id hcallee
    obtain ⟨a, hdeployed, hrecipient⟩ := Plan.exists_deployed_of_payload hpayload hcallee
    exact ⟨a, located_of_deployed? hdeployed, hrecipient⟩

theorem caused_created {c : WriteCommand} {id : Nat} {t : SignedTransaction} {time : Nat}
    {hash : Hash} {rest : List Exchange} (hc : σ.plan.writes.find? name = some c)
    (htarget : c.target = some id) (hnone : t.transaction.recipient = none)
    (haccepted : σ.trace.exchanges = ⟨time, .send t, .ok hash⟩ :: rest)
    : Runs host (Caused start name args) σ
        (deployed host id (t.sender.create t.transaction.nonce) σ).2 := by
  obtain ⟨text, hdeployed⟩ := run_deployed host id (t.sender.create t.transaction.nonce) σ
  rw [hdeployed]
  apply Runs.cons (.log .info text) trivial
  apply Runs.cons (.address id _)
    ⟨t, .inl ⟨⟨c, hc, htarget⟩, hnone, ⟨time, hash, rest, haccepted⟩, rfl⟩⟩
  apply Runs.cons (.probe id) trivial
  apply runs_fetchSymbol
  . intro call f hcall
    have haddress := address?_of_viewCall hcall
    refine .inr ⟨id, ⟨⟨f, hcall⟩, haddress⟩, .inr ⟨t, hash, ?_, hnone, ?_⟩⟩
    . show _ ∈ broadcasts σ.trace.exchanges
      rw [haccepted]
      exact List.mem_cons_self ..
    . have hcreated := address?_address host (σ.after host (.log .info text)) id
        (t.sender.create t.transaction.nonce) id
      rw [if_pos rfl] at hcreated
      obtain ⟨_, _, heq⟩ := Option.map_eq_some_iff.mp (hcreated.symm.trans haddress)
      exact heq.symm
  . exact fun _ _ _ => trivial
  . exact fun _ symbol => ⟨symbol, rfl⟩

theorem caused_settle {c : WriteCommand} {r : Ready} {hash : Hash}
    (hc : σ.plan.writes.find? name = some c)
    (hprepare : (prepare host c args).run σ = (.ok r, σ'))
    (hanswer : (host.node.ask (.send r.signed) σ'.trace.world).1 = .ok hash)
    : Runs host (Caused start name args) (σ'.after host (.ask (.send r.signed)))
        ((settle host c r hash).run (σ'.after host (.ask (.send r.signed)))).2 := by
  have hlike := ((follows_prepare c args).runs hprepare).like
  have hdeploys := prepare_deploys hprepare
  obtain ⟨text, hsettle⟩ := run_settle host c r hash (σ'.after host (.ask (.send r.signed)))
  have haccepted
      : ((σ'.after host (.ask (.send r.signed))).after host (.log .info text)).trace.exchanges
        = ⟨σ'.trace.clock, .send r.signed, .ok hash⟩ :: σ'.trace.exchanges := by
    rw [← hanswer]
    rfl
  rw [hsettle]
  apply Runs.cons (.log .info text) trivial
  cases hintent : r.intent with
  | deploy id value =>
    rw [hintent] at hdeploys
    obtain ⟨hnone, htarget, _, _⟩ := hdeploys
    dsimp only
    rw [← prepare_signer hprepare, ← (prepare_sender hprepare).2]
    apply caused_created _ htarget hnone haccepted
    show σ'.plan.writes.find? name = some c
    rw [hlike.writes]
    exact hc
  | _ => exact .nil _

theorem caused_runWrite {c : WriteCommand} (hc : σ.plan.writes.find? name = some c)
    : Runs host (Caused start name args) σ (runWrite host c args σ).2 := by
  apply runs_runWrite
  . exact caused_discoverSymbols.trans ((runs_prepare host c args σ).mono caused_of_arranging)
  . intro r σ₁ hprepare
    exact ⟨c, r.intent, sends_of_prepare hc hprepare⟩
  . intro r σ₁ hash hprepare hanswer
    exact caused_settle hc hprepare hanswer

theorem caused_runCommand (host : Host ω) (start : List Exchange) (name : String)
    (args : List String) (σ : Session ω)
    : Runs host (Caused start name args) σ ((runCommand host name args).run σ).2 :=
  runs_runCommand (fun _ _ _ => trivial)
    (fun _ _ _ => follows_runCall (fun _ _ _ => trivial) _ _ _)
    (fun _ _ hc => caused_runRead hc)
    (fun _ _ hc => caused_runWrite hc)

theorem signer_of_broadcasts {c : WriteCommand} {new : List Exchange} {t : SignedTransaction}
    {answer : Result Hash}
    (hnew : (runWrite host c args σ).2.trace.exchanges = new ++ σ.trace.exchanges)
    (hmem : (t, answer) ∈ broadcasts new) : σ.plan.wallets.addressOf c.wallet = .ok t.sender := by
  obtain ⟨r, σ₁, hprepare, rfl, -, -⟩ := exists_prepared hnew hmem
  rw [prepare_signer hprepare]
  exact (prepare_sender hprepare).1

theorem predicted_of_broadcasts {c : WriteCommand} {id : Nat} {new : List Exchange}
    {t : SignedTransaction} {hash : Hash}
    (hnew : (runWrite host c args σ).2.trace.exchanges = new ++ σ.trace.exchanges)
    (hmem : (t, .ok hash) ∈ broadcasts new) (htarget : c.target = some id)
    (hnone : t.transaction.recipient = none)
    : (runWrite host c args σ).2.address? id = some (t.sender.create t.transaction.nonce) := by
  obtain ⟨o, σ', new', hrun, hwrote⟩ := exists_wrote host c args σ
  rw [hrun] at hnew ⊢
  have hsame := hwrote.exchanges
  rw [hnew] at hsame
  rw [List.append_cancel_right hsame] at hmem hnew
  obtain ⟨id', sender, htarget', _, hsender, _, haddress⟩ := hwrote.deployed t hash hmem hnone
  rw [htarget] at htarget'
  cases htarget'
  rw [signer_of_broadcasts (by rw [hrun]; exact hnew) hmem] at hsender
  cases hsender
  rw [haddress, if_pos rfl]

theorem caused_adopt {s : Step} {t : SignedTransaction} {hash : Hash} {r : Receipt} {time : Nat}
    {earlier : List Exchange}
    (hmined : σ.trace.exchanges = ⟨time, .receipt hash, .ok (some r)⟩ :: earlier ++ start)
    (hbroadcasts : broadcasts earlier = [(t, .ok hash)]) (hsuccess : r.success = true)
    (hpredicted : ∀ c id, σ.plan.writes.find? s.command = some c → c.target = some id →
      t.transaction.recipient = none → σ.address? id = some (t.sender.create t.transaction.nonce))
    : Runs host (Caused start s.command args) σ (adopt s r σ).2 := by
  unfold adopt
  cases hcontract : r.contract with
  | none => exact .nil σ
  | some a =>
    dsimp only
    unfold confirmDeployment
    simp only [bind, StateT.bind, Action.get_apply]
    cases htarget : (σ.plan.writes.find? s.command).bind WriteCommand.target with
    | none => exact .nil σ
    | some id =>
      obtain ⟨c, hc, hid⟩ := Option.bind_eq_some_iff.mp htarget
      dsimp only
      split
      . exact .nil σ
      . next hother =>
        apply Runs.cons (.address id a)
        . refine ⟨t, .inr ⟨⟨c, hc, hid⟩, ⟨time, hash, r, earlier, hmined, hbroadcasts, hsuccess,
            hcontract⟩, ?_, hpredicted c id hc hid⟩⟩
          exact fun h => hother (beq_iff_eq.mpr h)
        . exact .single (.log .warn _) trivial

theorem settles_of_await {hash : Hash} {r : Receipt}
    (h : onTrace (await host.node host.policy host.cancel hash).run σ = (.ok r, σ'))
    : σ'.plan = σ.plan ∧ r.success = true ∧
        ∃ asked, σ'.trace.exchanges = asked ++ σ.trace.exchanges ∧
          Settles hash r asked ∧ broadcasts asked = [] := by
  obtain ⟨_, asked, hasked, hwaited⟩ :=
    awaitFrom_waited host.node host.policy hash (σ.trace.clock + host.policy.timeout.nanos)
      host.cancel maxBurst σ.trace (.refl host.cancel σ.trace.clock)
  obtain ⟨hresult, rfl⟩ := Prod.mk.inj h
  obtain ⟨hsuccess, hsettles⟩ := hwaited.confirmed r hresult
  refine ⟨rfl, hsuccess, asked, hasked, hsettles, ?_⟩
  apply broadcasts_eq_nil
  intro x hx t ht
  rcases (hwaited.asks x hx).1 with hstatus | hreceipt
  . rw [ht] at hstatus
    cases hstatus
  . rw [ht] at hreceipt
    cases hreceipt

theorem caused_confirm {s : Step} {t : SignedTransaction} {hash : Hash} {new : List Exchange}
    (results : List Outcome) (hnew : σ.trace.exchanges = new ++ start)
    (hbroadcasts : broadcasts new = [(t, .ok hash)])
    (hpredicted : ∀ c id, σ.plan.writes.find? s.command = some c → c.target = some id →
      t.transaction.recipient = none → σ.address? id = some (t.sender.create t.transaction.nonce))
    : Runs host (Caused start s.command args) σ (confirm host s results hash σ).2 := by
  obtain ⟨text, hconfirm⟩ := confirm_eq host s results hash
  have hrun : confirm host s results hash σ
      = conclude host s results hash (σ.after host (.log .info text)) := by
    rw [hconfirm]
    rfl
  have hwaiting : Runs host (Waiting hash) (σ.after host (.log .info text)) _ :=
    follows_await hash (σ.after host (.log .info text))
  rw [hrun]
  apply Runs.cons (.log .info text) trivial
  -- The wait is the only part that takes time. What follows depends on how it ends.
  cases hawait : onTrace (await host.node host.policy host.cancel hash).run
      (σ.after host (.log .info text)) with
  | mk result σ₁ =>
    rw [hawait] at hwaiting
    apply (hwaiting.mono caused_of_waiting).trans
    cases result with
    | error e =>
      rw [conclude_of_error hawait]
      exact .nil σ₁
    | ok r =>
      rw [conclude_of_ok hawait]
      obtain ⟨hplan, hsuccess, asked, hasked, ⟨time, begun, earlier, rfl, _⟩, hquiet⟩ :=
        settles_of_await hawait
      have hmined : σ₁.trace.exchanges
          = ⟨time, .receipt hash, .ok (some r)⟩
              :: (⟨begun, .status hash, .ok (some .settled)⟩ :: earlier ++ new) ++ start := by
        rw [hasked]
        show _ ++ σ.trace.exchanges = _
        rw [hnew]
        simp
      have hone
          : broadcasts (⟨begun, .status hash, .ok (some .settled)⟩ :: earlier ++ new)
            = [(t, .ok hash)] := by
        rw [broadcasts_append, hbroadcasts]
        exact congrArg (· ++ _) hquiet
      apply caused_adopt hmined hone hsuccess
      unfold address?
      rw [hplan]
      exact hpredicted

theorem Wrote.broadcasts_eq {c : WriteCommand} {o : Outcome} {new : List Exchange}
    {t : SignedTransaction} {answer : Result Hash} (h : Wrote c σ o σ' new)
    (hmem : (t, answer) ∈ broadcasts new) : broadcasts new = [(t, answer)] := by
  have honce := h.once
  generalize broadcasts new = sent at hmem honce
  match sent with
  | [] => cases hmem
  | [_] => rw [List.mem_singleton.mp hmem]
  | _ :: _ :: _ => simp at honce

theorem caused_runStep {s : Step} {stepArgs : List String} (host : Host ω)
    (hkind : σ.plan.kind? s.command = some s.kind) (hargs : s.argsFor args = .ok stepArgs)
    : Runs host (Caused σ.trace.exchanges s.command stepArgs) σ (runStep host s args σ).2 := by
  obtain ⟨results, σ₁, hrun, hone⟩ := @runCommand_of_kind _ host _ _ stepArgs _ hkind
  have hruns : Runs host (Caused σ.trace.exchanges s.command stepArgs) σ _ :=
    caused_runCommand host _ s.command stepArgs σ
  rw [hrun] at hruns
  rw [runStep_of_run hargs hrun]
  by_cases hwrite : s.kind = .write
  . obtain ⟨c, text, o, rfl, hc, hrunWrite⟩ := hone hwrite
    obtain ⟨new, hwrote⟩ := wrote_of_run hrunWrite
    have hnew : σ₁.trace.exchanges = new ++ σ.trace.exchanges := hwrote.exchanges
    cases hsubmitted : submitted? [o] with
    | none =>
      obtain ⟨fault, hfinish⟩ := @finishStep_of_unsent _ host _ hwrite _ hsubmitted σ₁
      rw [hfinish]
      exact hruns
    | some hash =>
      cases hdeferred : s.deferred with
      | true =>
        obtain ⟨text', hfinish⟩ :=
          @finishStep_of_deferred _ host _ hwrite hdeferred _ _ hsubmitted σ₁
        rw [hfinish]
        exact hruns.trans (.single (.log .info text') trivial)
      | false =>
        rw [finishStep_of_awaited hwrite hdeferred hsubmitted]
        obtain ⟨t, hmem⟩ := (submitted?_singleton hwrote hash).mp hsubmitted
        apply hruns.trans
        apply caused_confirm _ hnew (hwrote.broadcasts_eq hmem)
        intro c' id hc' htarget hnone
        -- No plan of the run has other commands.
        rw [hruns.like.writes, hc] at hc'
        cases hc'
        have hpredicted := @predicted_of_broadcasts _ host stepArgs (σ.after host (.log .info text))
          c id new t hash (by rw [hrunWrite]; exact hnew) hmem htarget hnone
        rw [hrunWrite] at hpredicted
        exact hpredicted
  . obtain ⟨fault, hfinish, _⟩ := @finishStep_of_query _ host _ hwrite results σ₁
    rw [hfinish]
    exact hruns

end Caused

end Session

end Runbook
