import Runbook.Proofs.Engine.Created
import Runbook.Proofs.Plan.Declared

/-!
This module contains what the wallet tokens of a value stand for: balances that the node told while
the write was under way, each asked for once.
-/

namespace Runbook

namespace ValuePiece

/--
What stands in the place of a piece if the balances of the wallets are those of `told`.
-/
def filled (told : String → Nat) : ValuePiece → List Char
  | char c => [c]
  | wallet name _ => (toString (told (String.ofList name))).toList

theorem mem_walletTokens {text : String} {name : List Char} {field : Option (List Char)}
    (h : wallet name field ∈ ofChars text.toList)
    : (String.ofList name, (field.map String.ofList).getD "address") ∈ walletTokens text :=
  List.mem_filterMap.mpr ⟨_, h, rfl⟩

end ValuePiece

theorem substituteBalances_eq_ok {wallets : Directory} {text : String} {told : String → Nat}
    (h : ∀ name field, (name, field) ∈ walletTokens text →
      walletBalance wallets name field = .ok (toString (told name)))
    : substituteBalances wallets text
        =
      .ok (String.ofList ((ValuePiece.ofChars text.toList).flatMap (ValuePiece.filled told))) := by
  refine bind_eq_ok.mpr ⟨_, mapM_eq_ok_iff.mpr (List.forall₂_map_right_iff.mpr
    (List.forall₂_same.mpr fun piece hpiece => ?_)), rfl⟩
  cases piece with
  | char c => rfl
  | wallet name field =>
    show (walletBalance wallets _ _).map String.toList = _
    rw [h _ _ (ValuePiece.mem_walletTokens hpiece)]
    rfl

theorem walletBalance_eq_ok {ws : Wallets} {name : String} {w : Wallet} {balance : Nat}
    (hw : Entries.find? ws name = some w) (hbalance : w.balance = some balance)
    : walletBalance ws.directory name "balance" = .ok (toString balance) := by
  have hcontains : ws.directory.contains name = true := by
    show Entries.contains ws name = true
    rw [Entries.contains_eq, hw]
    rfl
  have hfield : ws.directory.field? name .balance = some (Value.uint256 balance) := by
    show (Entries.find? ws name).bind (·.field? .balance) = _
    rw [hw]
    show w.balance.map Value.uint256 = _
    rw [hbalance]
    rfl
  unfold walletBalance
  rw [hcontains, hfield]
  rfl

namespace Session

variable {ω : Type} {host : Host ω} {σ σ' σ₁ : Session ω} {c : WriteCommand}

section Names

def extend (names : List String) (name : String) : List String :=
  if names.contains name then names else names ++ [name]

theorem mem_extend {names : List String} {name other : String}
    : other ∈ extend names name ↔ other ∈ names ∨ other = name := by
  unfold extend
  split
  . next hmem =>
    rw [List.contains_iff_mem] at hmem
    exact ⟨.inl, fun h => h.elim id fun heq => heq ▸ hmem⟩
  . rw [List.mem_append, List.mem_singleton]

theorem nodup_extend {names : List String} (h : names.Nodup) (name : String)
    : (extend names name).Nodup := by
  unfold extend
  split
  . exact h
  . next hmem =>
    rw [List.contains_iff_mem] at hmem
    rw [List.nodup_append]
    exact ⟨h, List.pairwise_singleton _ _, fun a ha b hb heq => hmem (by
      rw [← List.mem_singleton.mp hb, ← heq]
      exact ha)⟩

theorem mem_foldl_extend {names known : List String} {name : String}
    : name ∈ names.foldl extend known ↔ name ∈ known ∨ name ∈ names := by
  induction names generalizing known with
  | nil => simp
  | cons n names ih =>
    rw [List.foldl_cons, ih, mem_extend, List.mem_cons, or_assoc]

theorem nodup_foldl_extend {names known : List String} (h : known.Nodup)
    : (names.foldl extend known).Nodup := by
  induction names generalizing known with
  | nil => exact h
  | cons n names ih => exact ih (nodup_extend h n)

theorem balancesOf_eq (c : WriteCommand)
    : balancesOf c = ((c.value.map balanceReferences).getD []).foldl extend [c.wallet] := rfl

theorem nodup_balancesOf (c : WriteCommand) : (balancesOf c).Nodup := by
  rw [balancesOf_eq]
  exact nodup_foldl_extend (List.pairwise_singleton _ _)

theorem wallet_mem_balancesOf : c.wallet ∈ balancesOf c := by
  rw [balancesOf_eq, mem_foldl_extend]
  exact .inl (List.mem_singleton_self _)

theorem mem_balancesOf {text name : String} (hvalue : c.value = some text)
    : name ∈ balancesOf c ↔ name = c.wallet ∨ (name, "balance") ∈ walletTokens text := by
  have hreferences : name ∈ balanceReferences text ↔ (name, "balance") ∈ walletTokens text := by
    unfold balanceReferences
    rw [List.mem_filterMap]
    constructor
    . rintro ⟨⟨wallet, field⟩, hmem, hname⟩
      dsimp only at hname
      split at hname
      . next hfield =>
        cases hname
        cases hfield
        exact hmem
      . cases hname
    . intro hmem
      exact ⟨_, hmem, rfl⟩
  rw [balancesOf_eq, mem_foldl_extend, List.mem_singleton, hvalue, ← hreferences]
  rfl

end Names

section Asked

def balanceAsked? : Exchange → Option (Address × Result Nat)
  | ⟨_, .balance a, answer⟩ => some (a, answer)
  | _ => none

/--
The addresses whose balance the node was asked for and what it answered, the oldest first.
-/
def balancesAsked (xs : List Exchange) : List (Address × Result Nat) :=
  (xs.filterMap balanceAsked?).reverse

theorem balancesAsked_append (xs ys : List Exchange)
    : balancesAsked (xs ++ ys) = balancesAsked ys ++ balancesAsked xs := by
  unfold balancesAsked
  rw [List.filterMap_append, List.reverse_append]

theorem balancesAsked_of_views {xs : List Exchange} (h : ∀ x ∈ xs, ∃ call, x.request = .view call)
    : balancesAsked xs = [] := by
  unfold balancesAsked
  rw [List.reverse_eq_nil_iff, List.filterMap_eq_nil_iff]
  intro x hx
  obtain ⟨call, hcall⟩ := h x hx
  unfold balanceAsked?
  split
  . cases hcall
  . rfl

end Asked

def balance? (σ : Session ω) (name : String) : Option Nat :=
  (Entries.find? σ.plan.wallets name).bind Wallet.balance

theorem balance?_balance (host : Host ω) (σ : Session ω) (name other : String) (balance : Nat)
    : (σ.after host (.balance name balance)).balance? other
        =
      if other = name then (Entries.find? σ.plan.wallets other).map fun _ => balance
      else σ.balance? other := by
  show (Entries.find? (σ.plan.wallets.setBalance name balance) other).bind Wallet.balance = _
  unfold Wallets.setBalance
  rw [Entries.find?_update]
  unfold balance?
  cases Entries.find? σ.plan.wallets other with
  | none => simp
  | some w => split <;> rfl

theorem eq_of_refreshBalance {name : String}
    (h : (refreshBalance host name).run σ = (.ok (), σ'))
    : ∃ (a : Address) (balance : Nat),
        σ.plan.wallets.addressOf name = .ok a ∧
        (host.node.ask (.balance a) σ.trace.world).1 = .ok balance ∧
        σ' = (σ.after host (.ask (.balance a))).after host (.balance name balance) := by
  obtain ⟨a, _, hread, h⟩ := Action.exists_of_run_bind h
  obtain ⟨ha, rfl⟩ := of_run_reads hread
  obtain ⟨balance, σ₁, hask, h⟩ := Action.exists_of_run_bind h
  obtain ⟨hanswer, rfl⟩ := of_run_ask (Action.eq_of_run_mapError hask)
  exact ⟨a, balance, ha, hanswer, (congrArg Prod.snd (Action.eq_of_run_perform h)).symm⟩

theorem balance?_refreshBalances {names : List String} {name : String} (hname : name ∉ names)
    (h : (refreshBalances host names).run σ = (.ok (), σ'))
    : σ'.balance? name = σ.balance? name := by
  induction names generalizing σ with
  | nil =>
    obtain ⟨_, rfl⟩ := Action.eq_of_run_pure h
    rfl
  | cons n names ih =>
    rw [List.mem_cons, not_or] at hname
    obtain ⟨_, _, hfirst, h⟩ := Action.exists_of_run_bind h
    obtain ⟨a, balance, _, _, rfl⟩ := eq_of_refreshBalance hfirst
    rw [ih hname.2 h, balance?_balance, if_neg hname.1]
    rfl

/--
The node was asked for the balance of each of the wallets, in their order, and the balances that
are known now are what it told.
-/
structure Refreshed (names : List String) (σ σ' : Session ω) (new : List Exchange) : Prop where
  exchanges : σ'.trace.exchanges = new ++ σ.trace.exchanges
  asked :
    List.Forall₂
      (fun name asked =>
        σ.plan.wallets.addressOf name = .ok asked.1 ∧
        ∃ balance, asked.2 = .ok balance ∧ σ'.balance? name = some balance)
      names (balancesAsked new)

theorem exists_refreshed {names : List String} (hnodup : names.Nodup)
    (h : (refreshBalances host names).run σ = (.ok (), σ')) : ∃ new, Refreshed names σ σ' new := by
  induction names generalizing σ with
  | nil =>
    obtain ⟨_, rfl⟩ := Action.eq_of_run_pure h
    exact ⟨[], rfl, .nil⟩
  | cons name names ih =>
    obtain ⟨hname, hnodup⟩ := List.nodup_cons.mp hnodup
    obtain ⟨_, _, hfirst, h⟩ := Action.exists_of_run_bind h
    obtain ⟨a, balance, ha, hanswer, rfl⟩ := eq_of_refreshBalance hfirst
    obtain ⟨new, hnew, hasked⟩ := ih hnodup h
    have hbalance : σ'.balance? name = some balance := by
      obtain ⟨w, hw, _⟩ := Wallets.addressOf_eq_ok.mp ha
      rw [balance?_refreshBalances hname h, balance?_balance, if_pos rfl]
      show (Entries.find? σ.plan.wallets name).map _ = _
      rw [hw]
      rfl
    have hexchanges : (σ.after host (.ask (.balance a))).trace.exchanges
        = ⟨σ.trace.clock, .balance a, .ok balance⟩ :: σ.trace.exchanges := by
      rw [← hanswer]
      rfl
    refine ⟨new ++ [⟨σ.trace.clock, .balance a, .ok balance⟩], ?_, ?_⟩
    . rw [List.append_assoc, List.singleton_append, ← hexchanges]
      exact hnew
    . rw [balancesAsked_append]
      refine .cons ⟨ha, balance, rfl, hbalance⟩ (hasked.imp fun n asked hn => ⟨?_, hn.2⟩)
      rw [← hn.1]
      exact (Wallets.addressOf_setBalance ..).symm

def Reaches (host : Host ω) (c : WriteCommand) (σ σ₁ : Session ω) : Prop :=
  ∃ sender price, (gather host c).run (discoverSymbols host σ).2 = (.ok (sender, price), σ₁)

theorem exists_refreshBalances {names : List String}
    (hknown : ∀ name ∈ names, ∃ a, σ.plan.wallets.addressOf name = .ok a)
    (htells : ∀ a w, ∃ balance : Nat, (host.node.ask (.balance a) w).1 = .ok balance)
    : ∃ σ', (refreshBalances host names).run σ = (.ok (), σ') := by
  induction names generalizing σ with
  | nil => exact ⟨σ, rfl⟩
  | cons name names ih =>
    obtain ⟨⟨a, ha⟩, hknown⟩ := List.forall_mem_cons.mp hknown
    obtain ⟨balance, hbalance⟩ := htells a σ.trace.world
    have hread : (reads (·.wallets.addressOf name)).run σ = (.ok a, σ) := by
      rw [← ha]
      rfl
    have hask : ((ask host (.balance a)).attach
        ("fetching balance of wallet '" ++ name ++ "'")).run σ
        = (.ok balance, σ.after host (.ask (.balance a))) := by
      refine Prod.ext ?_ rfl
      show (host.node.ask (.balance a) σ.trace.world).1.mapError _ = _
      rw [hbalance]
      rfl
    have hfirst : (refreshBalance host name).run σ
        = (.ok (), (σ.after host (.ask (.balance a))).after host (.balance name balance)) :=
      (Action.run_bind_ok hread).trans ((Action.run_bind_ok hask).trans rfl)
    obtain ⟨σ', hrest⟩ := @ih ((σ.after host (.ask (.balance a))).after host
      (.balance name balance)) fun n hn => by
        obtain ⟨a', ha'⟩ := hknown n hn
        exact ⟨a', (Wallets.addressOf_setBalance ..).trans ha'⟩
    exact ⟨σ', (Action.run_bind_ok hfirst).trans hrest⟩

theorem exists_reaches
    (hknown : ∀ name ∈ balancesOf c, ∃ a, σ.plan.wallets.addressOf name = .ok a)
    (htells : ∀ a w, ∃ balance : Nat, (host.node.ask (.balance a) w).1 = .ok balance)
    : ∃ σ₁, Reaches host c σ σ₁ := by
  let σ₀ : Session ω := (discoverSymbols host σ).2
  have hlike : σ.plan.Like σ₀.plan := (@follows_discoverSymbols _ host σ).like
  have hknown₀ : ∀ name ∈ balancesOf c, ∃ a, σ₀.plan.wallets.addressOf name = .ok a := by
    intro name hname
    rw [hlike.wallets]
    exact hknown name hname
  obtain ⟨sender, hsender⟩ := hknown₀ c.wallet wallet_mem_balancesOf
  obtain ⟨σ₁, hrefresh⟩ := exists_refreshBalances hknown₀ htells
  have hread : (reads (·.wallets.addressOf c.wallet)).run σ₀ = (.ok sender, σ₀) := by
    rw [← hsender]
    rfl
  have hprice := Action.run_perform (gasPrice host) σ₁
  refine ⟨(gasPrice host σ₁).2, sender, (gasPrice host σ₁).1, ?_⟩
  unfold gather
  refine (Action.run_bind_ok hread).trans ?_
  refine (Action.run_bind_ok hrefresh).trans ?_
  exact (Action.run_bind_ok hprice).trans rfl

def transact (host : Host ω) (c : WriteCommand) (args : List String) (sender : Address)
    (price : Nat) : Action (Session ω) Hash := do
  let amount ← reads (amountOf c args)
  let r ← compose host c args sender price amount
  let hash ← send host r
  settle host c r hash

theorem run_submitWrite (host : Host ω) (c : WriteCommand) (args : List String) (σ : Session ω)
    : (submitWrite host c args).run σ
        =
      (gather host c >>= fun (sender, price) => transact host c args sender price).run
        (discoverSymbols host σ).2 := by
  rw [submitWrite_eq, prepare_eq]
  simp only [bind_assoc]
  exact Action.run_bind_ok (Action.run_perform _ σ)

theorem reaches_or_fails (host : Host ω) (c : WriteCommand) (σ : Session ω)
    : (∃ σ₁, Reaches host c σ σ₁) ∨
      ∃ e σ₁, ∀ args, (submitWrite host c args).run σ = (.error e, σ₁) := by
  cases hgather : (gather host c).run (discoverSymbols host σ).2 with
  | mk result σ₁ =>
    cases result with
    | error e =>
      refine .inr ⟨e, σ₁, fun args => ?_⟩
      rw [run_submitWrite, Action.run_bind_error hgather]
    | ok x => exact .inl ⟨σ₁, x.1, x.2, hgather⟩

theorem Reaches.run_submitWrite (h : Reaches host c σ σ₁)
    : ∃ sender price, ∀ args,
        (submitWrite host c args).run σ = (transact host c args sender price).run σ₁ := by
  obtain ⟨sender, price, hgather⟩ := h
  refine ⟨sender, price, fun args => ?_⟩
  rw [Session.run_submitWrite, Action.run_bind_ok hgather]

theorem Reaches.refreshed (h : Reaches host c σ σ₁)
    : ∃ new, Refreshed (balancesOf c) σ σ₁ new := by
  obtain ⟨sender, price, h⟩ := h
  obtain ⟨_, _, hread, h⟩ := Action.exists_of_run_bind h
  obtain ⟨_, rfl⟩ := of_run_reads hread
  obtain ⟨_, σ₂, hrefresh, h⟩ := Action.exists_of_run_bind h
  obtain ⟨price', σ₃, hprice, h⟩ := Action.exists_of_run_bind h
  obtain ⟨_, rfl⟩ := Action.eq_of_run_pure h
  have hdiscover := @follows_discoverSymbols _ host σ
  obtain ⟨views, hviews, hquiet⟩ := hdiscover.forall_request fun _ _ => view_of_probing
  obtain ⟨new, hnew, hasked⟩ := exists_refreshed (nodup_balancesOf c) hrefresh
  obtain ⟨_, _, hplan, hsuggested⟩ := gasPrice_spec (Action.eq_of_run_perform hprice)
  obtain ⟨x, hx, hsuggested⟩ : ∃ x, balancesAsked [x] = [] ∧
      σ₃.trace.exchanges = x :: σ₂.trace.exchanges := ⟨_, rfl, hsuggested⟩
  -- Neither the search for symbols nor the gas price has a part in the balances.
  refine ⟨[x] ++ new ++ views, ?_, ?_⟩
  . rw [hsuggested, hnew, hviews, List.append_assoc, List.append_assoc, List.singleton_append]
  . rw [balancesAsked_append, balancesAsked_append, balancesAsked_of_views hquiet, hx,
      List.append_nil, List.nil_append]
    refine hasked.imp fun name asked hname => ?_
    obtain ⟨haddress, balance, hanswer, hbalance⟩ := hname
    refine ⟨(hdiscover.like.wallets name).symm.trans haddress, balance, hanswer, ?_⟩
    unfold balance?
    rw [hplan]
    exact hbalance

theorem Reachable.valuing (hσ : σ.Reachable) : σ.plan.Valuing := by
  refine hσ.invariant (P := Plan.Valuing) ?_ ?_
  . intro _ _ _ _ _ _ _ hchecked
    exact (Plan.declared_of_ofDocument hchecked).valuing
  . intro p q hlike hp name c text hc hvalue wallet field htoken
    rw [hlike.writes] at hc
    obtain ⟨hfield, hwallet⟩ := hp name c text hc hvalue wallet field htoken
    exact ⟨hfield, hlike.exists_wallet hwallet⟩

theorem Reachable.exists_reaches {name : String} (hσ : σ.Reachable)
    (hc : σ.plan.writes.find? name = some c)
    (htells : ∀ a w, ∃ balance : Nat, (host.node.ask (.balance a) w).1 = .ok balance)
    : ∃ σ₁, Reaches host c σ σ₁ := by
  refine Session.exists_reaches (fun wallet hwallet => ?_) htells
  obtain ⟨w, hw⟩ : ∃ w, Entries.find? σ.plan.wallets wallet = some w := by
    obtain ⟨d, hsound⟩ := hσ.sound
    obtain ⟨_, _, hchecked⟩ := hsound.writes.find? hc
    cases hvalue : c.value with
    | none =>
      rw [balancesOf_eq, hvalue] at hwallet
      rw [List.mem_singleton.mp hwallet]
      exact hchecked.wallet.exists_wallet
    | some text =>
      rcases (mem_balancesOf hvalue).mp hwallet with rfl | htoken
      . exact hchecked.wallet.exists_wallet
      . exact (hσ.valuing name c text hc hvalue wallet "balance" htoken).2
  exact ⟨w.address, Wallets.addressOf_eq_ok.mpr ⟨w, hw, rfl⟩⟩

/--
A write of a checked playbook that comes to read its value has asked the node since it began for the
balance of its sender and of every wallet that the value names, once each. Every wallet token is
about a balance and is replaced by the one that the node told then, so that putting the balances in
does not fail, whatever the arguments are.
-/
theorem balances_told {name text : String} (hσ : σ.Reachable)
    (hc : σ.plan.writes.find? name = some c) (hvalue : c.value = some text)
    (h : Reaches host c σ σ₁)
    : ∃ (sender : Address) (price : Nat) (told : String → Nat) (new : List Exchange),
        (∀ args, (submitWrite host c args).run σ = (transact host c args sender price).run σ₁) ∧
        σ₁.trace.exchanges = new ++ σ.trace.exchanges ∧
        (balancesOf c).Nodup ∧
        List.Forall₂
          (fun wallet asked =>
            σ.plan.wallets.addressOf wallet = .ok asked.1 ∧ asked.2 = .ok (told wallet))
          (balancesOf c) (balancesAsked new) ∧
        (∀ wallet field, (wallet, field) ∈ walletTokens text →
          field = "balance" ∧
          wallet ∈ balancesOf c ∧
          walletBalance σ₁.plan.wallets.directory wallet field = .ok (toString (told wallet))) ∧
        substituteBalances σ₁.plan.wallets.directory text
          =
        .ok (String.ofList
          ((ValuePiece.ofChars text.toList).flatMap (ValuePiece.filled told))) := by
  obtain ⟨new, hrefreshed⟩ := h.refreshed
  let told : String → Nat := fun wallet => (σ₁.balance? wallet).getD 0
  have htokens : ∀ wallet field, (wallet, field) ∈ walletTokens text →
      field = "balance" ∧
      wallet ∈ balancesOf c ∧
      walletBalance σ₁.plan.wallets.directory wallet field = .ok (toString (told wallet)) := by
    intro wallet field htoken
    obtain ⟨rfl, _⟩ := hσ.valuing name c text hc hvalue wallet field htoken
    have hmem : wallet ∈ balancesOf c := (mem_balancesOf hvalue).mpr (.inr htoken)
    obtain ⟨_, _, _, balance, _, hbalance⟩ := exists_mem_of_forall₂ hrefreshed.asked hmem
    obtain ⟨w, hw, hwbalance⟩ := Option.bind_eq_some_iff.mp hbalance
    have htold : told wallet = balance := by
      show (σ₁.balance? wallet).getD 0 = balance
      rw [hbalance]
      rfl
    rw [htold]
    exact ⟨rfl, hmem, walletBalance_eq_ok hw hwbalance⟩
  obtain ⟨sender, price, hrun⟩ := h.run_submitWrite
  refine ⟨sender, price, told, new, hrun, hrefreshed.exchanges, nodup_balancesOf c, ?_, htokens,
    substituteBalances_eq_ok fun wallet field htoken => (htokens wallet field htoken).2.2⟩
  refine hrefreshed.asked.imp fun wallet asked hasked => ?_
  obtain ⟨haddress, balance, hanswer, hbalance⟩ := hasked
  refine ⟨haddress, ?_⟩
  rw [hanswer]
  show _ = Except.ok ((σ₁.balance? wallet).getD 0)
  rw [hbalance]
  rfl

theorem balances_told_alice
    : ∃ (host : Host Unit) (σ σ₁ : Session Unit) (c : WriteCommand) (told : String → Nat)
        (new : List Exchange) (a : Address),
        σ.Reachable ∧
        σ.plan.writes.find? "pay" = some c ∧
        c.value = some "@alice.balance / 2" ∧
        Reaches host c σ σ₁ ∧
        σ₁.trace.exchanges = new ++ σ.trace.exchanges ∧
        (a, .ok (told "alice")) ∈ balancesAsked new ∧
        substituteBalances σ₁.plan.wallets.directory "@alice.balance / 2"
          =
        .ok (toString (told "alice") ++ " / 2") := by
  have hpieces : ValuePiece.ofChars "@alice.balance / 2".toList
      = [.wallet "alice".toList (some "balance".toList), .char ' ', .char '/', .char ' ',
          .char '2'] := by
    decide +kernel
  have htokens : walletTokens "@alice.balance / 2" = [("alice", "balance")] := by
    unfold walletTokens
    rw [hpieces]
    rfl
  obtain ⟨p, t, c, hchecked, hc, _, _, hvalue, _⟩ :=
    @exists_paying "@alice.balance / 2" fun w => by
      unfold checkValueReferences
      rw [htokens]
      rfl
  let host : Host Unit := mintingHost (fun _ => .ok []) none none
  let σ : Session Unit := { plan := p, trace := t }
  have hσ : σ.Reachable := .start hchecked t
  obtain ⟨σ₁, hreaches⟩ : ∃ σ₁, Reaches host c σ σ₁ :=
    hσ.exists_reaches hc fun _ _ => ⟨(0 : Nat), rfl⟩
  obtain ⟨_, _, told, new, _, hnew, _, hasked, htold, hsubstitute⟩ :=
    balances_told hσ hc hvalue hreaches
  obtain ⟨_, hmem, _⟩ := htold "alice" "balance" (htokens ▸ List.mem_cons_self ..)
  obtain ⟨⟨a, _⟩, ha, _, rfl⟩ := exists_mem_of_forall₂ hasked hmem
  refine ⟨host, σ, σ₁, c, told, new, a, hσ, hc, hvalue, hreaches, hnew, ha, hsubstitute.trans ?_⟩
  rw [hpieces]
  show Except.ok (String.ofList
    ((toString (told (String.ofList "alice".toList))).toList ++ " / 2".toList)) = _
  rw [String.ofList_append, String.ofList_toList, String.ofList_toList, String.ofList_toList]

end Session

end Runbook
