import Runbook.Proofs.Amount.Written
import Runbook.Proofs.Engine.Target

/-!
This module contains what the transactions of a checked playbook's writes do: where their money goes
and what they are ready to pay for it.
-/

namespace Runbook

def Transaction.payload (t : Transaction) : Payload :=
  { recipient := t.recipient, value := t.value, data := t.data }

namespace Session

variable {ω : Type} {host : Host ω} {σ σ' : Session ω} {c : WriteCommand} {args : List String}

def suggestion? : Exchange → Option (Result Nat)
  | ⟨_, .gasPrice, answer⟩ => some answer
  | _ => none

def suggestions (xs : List Exchange) : List (Result Nat) :=
  xs.filterMap suggestion?

theorem suggestions_append (xs ys : List Exchange)
    : suggestions (xs ++ ys) = suggestions xs ++ suggestions ys :=
  List.filterMap_append ..

theorem suggestions_eq_nil {xs : List Exchange} (h : ∀ x ∈ xs, x.request ≠ .gasPrice)
    : suggestions xs = [] := by
  unfold suggestions
  rw [List.filterMap_eq_nil_iff]
  intro x hx
  unfold suggestion?
  split
  . exact absurd rfl (h _ hx)
  . rfl

theorem suggestions_of_views {xs : List Exchange} (h : ∀ x ∈ xs, ∃ call, x.request = .view call)
    : suggestions xs = [] := by
  apply suggestions_eq_nil
  intro x hx heq
  obtain ⟨call, hcall⟩ := h x hx
  rw [heq] at hcall
  cases hcall

/--
What is known of a transaction that was signed in the session `σ'`, the write having begun in `σ`
and the node having been asked for `asked` in all.
-/
structure Signed (c : WriteCommand) (args : List String) (σ σ' : Session ω) (asked : List Exchange)
    (t : Transaction) : Prop where
  carries : ∃ amount, amountOf c args σ'.plan = .ok amount ∧ σ'.plan.Carries c args amount t.payload
  gasLimit : t.gasLimit ≤ σ.plan.config.gasLimit
  gasPrice : ∃ answer, suggestions asked = [answer] ∧
    t.gasPrice = offered σ.plan.config.gasPrice answer

theorem prepare_signed {r : Ready} (h : (prepare host c args).run σ = (.ok r, σ'))
    : ∃ new,
        σ'.trace.exchanges = new ++ σ.trace.exchanges ∧
        broadcasts new = [] ∧
        Signed c args σ σ' new r.signed.transaction := by
  obtain ⟨σ₁, σ₂, amount, payload, price, limit, hgather, hprice, _, hamount, hintent, hpayload, _,
    hsigning, hlimit, ht⟩ := prepare_stages h
  obtain ⟨answer, rfl, hplan₂, hasked⟩ := gasPrice_spec hprice
  have hsigning : Runs host Signing σ₂ σ' := .cons (.ask (.nonce r.sender)) trivial hsigning
  have hplan : σ'.plan = σ₂.plan := hsigning.plan_of_signing
  have hconfig : σ₁.plan.config = σ.plan.config := hgather.like.config
  obtain ⟨new₁, hnew₁, hall₁⟩ := hgather.forall_request (P := (· ≠ .gasPrice)) (by
    rintro σ r hr rfl
    exact hr)
  obtain ⟨new₂, hnew₂, hall₂⟩ := hsigning.forall_request (P := (· ≠ .gasPrice)) (by
    rintro σ r hr rfl
    exact hr)
  have hnew : σ'.trace.exchanges
      = (new₂ ++ ⟨σ₁.trace.clock, .gasPrice, answer⟩ :: new₁) ++ σ.trace.exchanges := by
    rw [hnew₂, hasked, hnew₁, List.append_assoc, List.cons_append]
  refine ⟨_, hnew, ?_, ⟨amount, ?_, ?_⟩, ?_, answer, ?_, ?_⟩
  . apply broadcasts_eq_nil
    intro x hx t ht
    obtain ⟨σ₃, hσ₃⟩ := ((follows_prepare c args).runs h).allowed hnew x hx
    rw [ht] at hσ₃
    exact hσ₃
  . rw [hplan]
    exact hamount
  . rw [hplan, ht]
    exact Plan.carries_of_payload (Plan.intent_eq_ok_iff.mp hintent) hpayload
  . rw [ht, ← hconfig, ← hplan₂]
    exact hlimit
  . -- The price is asked for once, behind what was gathered.
    rw [suggestions_append, suggestions_eq_nil hall₂]
    show answer :: suggestions new₁ = _
    rw [suggestions_eq_nil hall₁]
  . rw [ht, ← hconfig]
    rfl

theorem Signed.of_suggestions {asked asked' : List Exchange} {t : Transaction}
    (h : Signed c args σ σ' asked t) (heq : suggestions asked' = suggestions asked)
    : Signed c args σ σ' asked' t where
  carries := h.carries
  gasLimit := h.gasLimit
  gasPrice := by
    rw [heq]
    exact h.gasPrice

theorem send_signed {r : Ready} (h : (prepare host c args).run σ = (.ok r, σ'))
    : ∃ new,
        (σ'.after host (.ask (.send r.signed))).trace.exchanges = new ++ σ.trace.exchanges ∧
        broadcasts new = [(r.signed, (host.node.ask (.send r.signed) σ'.trace.world).1)] ∧
        Signed c args σ σ' new r.signed.transaction := by
  obtain ⟨new, hnew, hquiet, hsigned⟩ := prepare_signed h
  let answer : Result Hash := (host.node.ask (.send r.signed) σ'.trace.world).1
  refine ⟨⟨σ'.trace.clock, .send r.signed, answer⟩ :: new, ?_, ?_, hsigned.of_suggestions rfl⟩
  . exact congrArg (_ :: ·) hnew
  . exact congrArg (_ :: ·) hquiet

theorem exists_sent (host : Host ω) (c : WriteCommand) (args : List String) (σ : Session ω)
    : ∃ new,
        (runWrite host c args σ).2.trace.exchanges = new ++ σ.trace.exchanges ∧
        match (prepare host c args).run σ with
        | (.error _, _) => broadcasts new = []
        | (.ok r, σ₁) =>
          broadcasts new = [(r.signed, (host.node.ask (.send r.signed) σ₁.trace.world).1)] ∧
          Signed c args σ σ₁ new r.signed.transaction := by
  rcases submitWrite_cases host c args σ with ⟨e, σ₁, hprepare, hrun⟩ |
    ⟨r, σ₁, hprepare, ⟨e, e', hanswer, hrun⟩ | ⟨hash, hanswer, hrun⟩⟩
  . rw [runWrite_of_error hrun, hprepare]
    exact ((follows_prepare c args).runs hprepare).broadcasts (fun _ _ h => h)
  . rw [runWrite_of_error hrun, hprepare]
    exact send_signed hprepare
  . obtain ⟨new, hnew, hsends, hsigned⟩ := send_signed hprepare
    obtain ⟨σ', new', hsettle, hnew', hviews, _⟩ :=
      settle_spec host c r hash (σ₁.after host (.ask (.send r.signed)))
    rw [hsettle] at hrun
    rw [runWrite_of_ok hrun, hprepare]
    refine ⟨new' ++ new, ?_, ?_, hsigned.of_suggestions ?_⟩
    . rw [hnew', hnew, List.append_assoc]
    . rw [broadcasts_append, broadcasts_of_views hviews, hsends]
      rfl
    . rw [suggestions_append, suggestions_of_views hviews]
      rfl

theorem exists_signed (host : Host ω) (c : WriteCommand) (args : List String) (σ : Session ω)
    : ∃ new,
        (runWrite host c args σ).2.trace.exchanges = new ++ σ.trace.exchanges ∧
        match (prepare host c args).run σ with
        | (.error _, _) => broadcasts new = []
        | (.ok r, σ₁) =>
          (∃ answer, broadcasts new = [(r.signed, answer)]) ∧
          Signed c args σ σ₁ new r.signed.transaction := by
  obtain ⟨new, hnew, hsent⟩ := exists_sent host c args σ
  refine ⟨new, hnew, ?_⟩
  split at hsent
  . exact hsent
  . exact ⟨⟨_, hsent.1⟩, hsent.2⟩

theorem exists_prepared {new : List Exchange} {t : SignedTransaction} {answer : Result Hash}
    (hnew : (runWrite host c args σ).2.trace.exchanges = new ++ σ.trace.exchanges)
    (hmem : (t, answer) ∈ broadcasts new)
    : ∃ r σ₁,
        (prepare host c args).run σ = (.ok r, σ₁) ∧
        r.signed = t ∧
        (host.node.ask (.send r.signed) σ₁.trace.world).1 = answer ∧
        broadcasts new = [(t, answer)] := by
  obtain ⟨new', hnew', hsent⟩ := exists_sent host c args σ
  rw [hnew'] at hnew
  rw [List.append_cancel_right hnew] at hsent
  split at hsent
  . rw [hsent] at hmem
    cases hmem
  . next r σ₁ hprepare =>
    obtain ⟨hone, _⟩ := hsent
    rw [hone] at hmem
    cases List.mem_singleton.mp hmem
    exact ⟨r, σ₁, hprepare, rfl, rfl, hone⟩

theorem isSome_of_amountOf {p : Plan} {amount : Option Amount} (h : amountOf c args p = .ok amount)
    : amount.isSome = c.value.isSome := by
  unfold amountOf at h
  split at h
  . next hvalue =>
    cases h
    rw [hvalue]
    rfl
  . next text hvalue =>
    obtain ⟨a, _, rfl⟩ := map_eq_ok.mp h
    rw [hvalue]
    rfl

theorem Reachable.writesFit (h : σ.Reachable) : σ.plan.WritesFit := by
  obtain ⟨d, hsound⟩ := h.sound
  exact hsound.writesFit

/--
If a write of a checked playbook signs a transaction, this is the one that it broadcasts, and it
carries what the command asks for. Whatever its amount is read off, a write never comes to a call of
no instance.
-/
theorem runWrite_signs {name : String} (host : Host ω) (args : List String) (hσ : σ.Reachable)
    (hc : σ.plan.writes.find? name = some c)
    : (∃ new,
        (runWrite host c args σ).2.trace.exchanges = new ++ σ.trace.exchanges ∧
        match (prepare host c args).run σ with
        | (.error _, _) => broadcasts new = []
        | (.ok r, σ₁) =>
          (∃ answer, broadcasts new = [(r.signed, answer)]) ∧
          Signed c args σ σ₁ new r.signed.transaction) ∧
      ∀ p amount, amountOf c args p = .ok amount →
        p.intent c args amount ≠ .error Plan.unbound := by
  refine ⟨exists_signed host c args σ, ?_⟩
  intro p amount hamount
  exact Plan.intent_ne_unbound (hσ.writesFit name c hc) (isSome_of_amountOf hamount)

def paymentDecl : WriteDecl where
  wallet := some "alice"
  value := some (.string "5 ether")
  recipient := some "0x0000000000000000000000000000000000000002"

def paymentDocument : Document where
  wallets := some [("alice",
    { privkey := some "0000000000000000000000000000000000000000000000000000000000000001" })]
  writes := some [("pay", paymentDecl)]

def payee : Address :=
  ⟨List.replicate 19 0 ++ [2], rfl⟩

theorem select_singleton (key name : String)
    : ∃ s, Sticky.select {} key [name] = .ok (name, s) := by
  have hchoice : Sticky.choice? key [name] = some name := by
    unfold Sticky.choice? Sticky.place
    simp only [List.mergeSort_singleton, List.length_singleton, Nat.mod_one]
    rfl
  unfold Sticky.select
  rw [hchoice]
  exact ⟨_, rfl⟩

theorem selector_alice
    : ∃ s, Selector.parse "alice" = .ok s ∧ s.matching ["alice"] = ["alice"] := by
  have hmatching : (Selector.parse "alice").toOption.map (·.matching ["alice"])
      = some ["alice"] := by
    decide +kernel
  cases hparse : Selector.parse "alice" with
  | error e =>
    rw [hparse] at hmatching
    cases hmatching
  | ok s =>
    rw [hparse] at hmatching
    exact ⟨s, rfl, Option.some.inj hmatching⟩

def payingDecl (text : String) : WriteDecl :=
  { paymentDecl with value := some (.string text) }

def payingDocument (text : String) : Document :=
  { paymentDocument with writes := some [("pay", payingDecl text)] }

theorem ofDecl_paying {w : Wallet} {text : String}
    (htext : checkValueReferences (Wallets.directory [("alice", w)]) text = .ok ())
    : ∃ c s,
        WriteCommand.ofDecl [("alice", w)] [] {} {} "pay" (payingDecl text) = .ok (c, {}, s) ∧
        c.target = none ∧
        c.value = some text ∧
        c.recipient = some (.address payee) := by
  obtain ⟨selector, hparse, hmatching⟩ := selector_alice
  obtain ⟨s, hselect⟩ := select_singleton "pay" "alice"
  have htrim : Text.trim "alice" = "alice" := by decide
  have hnames : Entries.names [("alice", w)] = ["alice"] := rfl
  have hrecipient : WriteCommand.recipientOf (Wallets.directory [("alice", w)])
      (payingDecl text).recipient = .ok (some (.address payee)) := by
    show (Recipient.parse _ "0x0000000000000000000000000000000000000002").map some = _
    unfold Recipient.parse argIndices
    rw [Piece.ofChars_eq_map (by decide)]
    rfl
  unfold WriteCommand.ofDecl
  rw [hrecipient]
  simp only [payingDecl, paymentDecl, Option.getD_some, Option.getD_none, Option.map_some,
    Scalar.text, htrim, hnames, hparse, hmatching, hselect, htext, bind, Except.bind,
    WriteCommand.bindTarget]
  exact ⟨_, _, rfl, rfl, rfl, rfl⟩

theorem exists_paying {text : String}
    (htext : ∀ w, checkValueReferences (Wallets.directory [("alice", w)]) text = .ok ())
    : ∃ p t c,
        (Plan.ofDocument silentServices (payingDocument text) {}).run { world := () }
          = (.ok (p, none), t) ∧
        p.writes.find? "pay" = some c ∧
        p.catalogue.instances = [] ∧
        c.target = none ∧
        c.value = some text ∧
        c.recipient = some (.address payee) := by
  obtain ⟨w, t₁, hwallets⟩ : ∃ w t₁,
      (Wallet.ofDecls silentServices.keyring silentServices.shelf
        ((payingDocument text).wallets.getD [])).run { world := () } = (.ok [("alice", w)], t₁) :=
    ⟨_, _, rfl⟩
  obtain ⟨c, s, hdecl, htarget, hvalue, hrecipient⟩ := ofDecl_paying (htext w)
  obtain ⟨t₂, names, hwrites⟩ : ∃ t₂ names,
      (Plan.addWrites [] { wallets := [("alice", w)] } {} {}
        ((payingDocument text).writes.getD [])).run t₁
        = (.ok ({ wallets := [("alice", w)], writes := [("pay", c)] }, names), t₂) := by
    unfold Plan.addWrites
    dsimp only [payingDocument, Option.getD_some]
    rw [hdecl]
    exact ⟨_, _, rfl⟩
  refine ⟨{ wallets := [("alice", w)], writes := [("pay", c)] }, t₂, c, ?_, rfl, rfl, htarget,
    hvalue, hrecipient⟩
  exact Plan.run_ofDocument rfl rfl hwallets rfl rfl rfl hwrites rfl

theorem exists_payment
    : ∃ p t c,
        (Plan.ofDocument silentServices paymentDocument {}).run { world := () }
          = (.ok (p, none), t) ∧
        p.writes.find? "pay" = some c ∧
        p.catalogue.instances = [] ∧
        c.target = none ∧
        c.value = some "5 ether" ∧
        c.recipient = some (.address payee) := by
  refine @exists_paying "5 ether" fun w => ?_
  unfold checkValueReferences walletTokens
  rw [ValuePiece.ofChars_eq_map (by decide)]
  rfl

theorem parse_payment (args : List String) (wallets : Directory)
    : Amount.parse [] args wallets "5 ether" = .ok ⟨5 * 10 ^ 18, some "ether"⟩ := by
  have hwritten : Written isExpressionChar "5 ether".toList "5".toList (some "ether") := by
    refine ⟨List.all_eq_true.mp (by decide), ?_, 1, "ether".toList, by decide, by decide⟩
    intro name hname
    cases hname
    decide
  have heval : Calc.evaluate (Text.lower "5") [] = .ok (.int 5) := by
    rw [show Text.lower "5" = "5" by decide]
    exact @Calc.evaluate_numeral ['5'] _ _ _ (by decide) rfl (Calc.readOperand_int 5 []) rfl
  exact (hwritten.parse_eq_ok args wallets).mpr ⟨5, heval, by decide, by decide, rfl⟩

theorem symbols_of_like {p q : Plan} (hlike : p.Like q) (h : p.catalogue.instances = [])
    : q.catalogue.symbols = [] := by
  have hcontract := hlike.contracts 0
  unfold Catalogue.instance? at hcontract
  rw [h] at hcontract
  have hnone : q.catalogue.instances = [] := by simpa using hcontract
  unfold Catalogue.symbols
  rw [hnone]
  rfl

theorem runWrite_payment
    : ∃ (σ : Session Unit) (c : WriteCommand),
        σ.Reachable ∧
        σ.plan.writes.find? "pay" = some c ∧
        ∀ (host : Host Unit) (args : List String), ∃ new,
          (runWrite host c args σ).2.trace.exchanges = new ++ σ.trace.exchanges ∧
          ∀ t answer, (t, answer) ∈ broadcasts new →
            t.transaction.recipient = some payee ∧
            t.transaction.value = 5 * 10 ^ 18 ∧
            t.transaction.data = [] := by
  obtain ⟨p, t, c, hchecked, hc, hinstances, htarget, hvalue, hrecipient⟩ := exists_payment
  have hσ : Reachable { plan := p, trace := t } := .start hchecked t
  refine ⟨_, c, hσ, hc, ?_⟩
  intro host args
  obtain ⟨⟨new, hnew, hsigned⟩, _⟩ := runWrite_signs host args hσ hc
  refine ⟨new, hnew, ?_⟩
  intro t answer hmem
  split at hsigned
  . rw [hsigned] at hmem
    cases hmem
  . next r σ₁ hprepare =>
    obtain ⟨⟨answer', hbroadcasts⟩, ⟨amount, hamount, hcarries⟩, _, _⟩ := hsigned
    rw [hbroadcasts] at hmem
    obtain ⟨rfl, _⟩ := Prod.mk.inj (List.mem_singleton.mp hmem)
    have hlike := ((follows_prepare c args).runs hprepare).like
    unfold amountOf at hamount
    rw [hvalue] at hamount
    dsimp only at hamount
    rw [symbols_of_like hlike hinstances, parse_payment] at hamount
    cases hamount
    have hwei : ∀ a, some (⟨5 * 10 ^ 18, some "ether"⟩ : Amount) = some a → a.isToken = false := by
      rintro a ⟨⟩
      decide
    obtain ⟨recipient, hto, hsent, hdata⟩ := hcarries.sends htarget hwei
    unfold Plan.recipientOf at hto
    rw [hrecipient] at hto
    cases hto
    exact ⟨hsent, hcarries.wei hwei, hdata⟩

end Session

end Runbook
