import Runbook.Proofs.Engine.Event

/-!
This module contains what calls and reads do to a session, and the search for token symbols.
-/

namespace Runbook.Session

variable {ω : Type} {host : Host ω} {Allowed : Session ω → Event → Prop} {σ : Session ω}

def Querying (_ : Session ω) : Event → Prop
  | .ask (.view _) | .ask (.rpc _ _) | .log _ _ => True
  | _ => False

def Running (_ : Session ω) : Event → Prop
  | .ask (.status _) | .ask (.receipt _) | .wait _ => False
  | _ => True

theorem running_of_querying (σ : Session ω) (e : Event) (h : Querying σ e) : Running σ e := by
  unfold Querying at h
  split at h
  all_goals trivial

def Probing (_ : Session ω) : Event → Prop
  | .ask (.view _) | .log _ _ | .probe _ | .symbol _ _ => True
  | _ => False

theorem run_view (host : Host ω) (id : Nat) (method : String) (sender : Option Address)
    (values : List Value) (σ : Session ω)
    : (view host id method sender values).run σ
        =
      match σ.plan.viewCall id method sender values with
      | .ok (call, f) =>
        ((host.node.ask (.view call) σ.trace.world).1 >>= f.decodeOutputs,
          σ.after host (.ask (.view call)))
      | .error e => (.error e, σ) := by
  have hreads : (reads (·.viewCall id method sender values)).run σ
      = (σ.plan.viewCall id method sender values, σ) := rfl
  unfold view
  cases hcall : σ.plan.viewCall id method sender values with
  | error e =>
    rw [hcall] at hreads
    rw [Action.run_bind_error hreads]
  | ok result =>
    obtain ⟨call, f⟩ := result
    rw [hcall] at hreads
    rw [Action.run_bind_ok hreads]
    dsimp only
    rcases Action.run_bind_cases (ask host (.view call))
        (fun output => Action.ofResult (f.decodeOutputs output)) σ with
      ⟨e, _, hask, hbind⟩ | ⟨output, _, hask, hbind⟩
    . obtain ⟨hanswer, rfl⟩ := of_run_ask hask
      rw [hbind, hanswer]
      rfl
    . obtain ⟨hanswer, rfl⟩ := of_run_ask hask
      rw [hbind, hanswer]
      rfl

theorem eq_of_viewCall {id : Nat} {method : String} {sender : Option Address} {values : List Value}
    {call : ViewCall} {f : Abi.Function}
    (h : σ.plan.viewCall id method sender values = .ok (call, f))
    : ∃ recipient data, σ.address? id = some recipient ∧ f.callData values = .ok data ∧
        call = { sender, recipient, data } := by
  obtain ⟨build, _, h⟩ := bind_eq_ok.mp h
  split at h
  . cases h
  . next recipient hrecipient =>
    obtain ⟨f', _, h⟩ := bind_eq_ok.mp h
    obtain ⟨data, hdata, h⟩ := bind_eq_ok.mp h
    cases h
    exact ⟨recipient, data, hrecipient, hdata, rfl⟩

theorem runs_view {id : Nat} {method : String} {sender : Option Address} {values : List Value}
    (hview : ∀ call f, σ.plan.viewCall id method sender values = .ok (call, f) →
      Allowed σ (.ask (.view call)))
    : Runs host Allowed σ ((view host id method sender values).run σ).2 := by
  rw [run_view]
  split
  . next call f hcall => exact .single (.ask (.view call)) (hview call f hcall)
  . exact .nil σ

def told (host : Host ω) (id : Nat) (σ : Session ω) : Option String :=
  if σ.plan.catalogue.tellsSymbol id then
    match ((view host id "symbol" none []).run σ).1 with
    | .ok (.string symbol) => if symbol.isEmpty then none else some symbol
    | _ => none
  else
    none

theorem fetchSymbol_spec {id : Nat}
    (hview : ∀ call f, σ.plan.viewCall id "symbol" none [] = .ok (call, f) →
      Allowed σ (.ask (.view call)))
    (hlog : ∀ σ level text, Allowed σ (.log level text))
    : ∃ σ₁, Runs host Allowed σ σ₁ ∧
        (fetchSymbol host id σ).2
            =
          match told host id σ with
          | some symbol => σ₁.after host (.symbol id (some (Text.upper symbol)))
          | none => σ₁ := by
  have hruns : Runs host Allowed σ ((view host id "symbol" none []).run σ).2 := runs_view hview
  unfold fetchSymbol told
  simp only [bind, StateT.bind, Action.get_apply, Action.outcome]
  split
  . cases hanswer : (view host id "symbol" none []).run σ with
    | mk answer σ₁ =>
      rw [hanswer] at hruns
      simp only [StateT.bind, hanswer]
      cases answer with
      | error e => exact ⟨_, hruns.trans (.single (.log .warn _) (hlog _ _ _)), rfl⟩
      | ok v =>
        cases v with
        | string symbol =>
          simp only [bind]
          cases symbol.isEmpty with
          | true => exact ⟨σ₁, hruns, rfl⟩
          | false => exact ⟨_, hruns.trans (.single (.log .info _) (hlog _ _ _)), rfl⟩
        | _ => exact ⟨σ₁, hruns, rfl⟩
  . exact ⟨σ, .nil σ, rfl⟩

theorem runs_fetchSymbol {id : Nat}
    (hview : ∀ call f, σ.plan.viewCall id "symbol" none [] = .ok (call, f) →
      Allowed σ (.ask (.view call)))
    (hlog : ∀ σ level text, Allowed σ (.log level text))
    (hsymbol : ∀ σ symbol, Allowed σ (.symbol id (some (Text.upper symbol))))
    : Runs host Allowed σ (fetchSymbol host id σ).2 := by
  obtain ⟨σ₁, hruns, hfetch⟩ := fetchSymbol_spec hview hlog
  rw [hfetch]
  split
  . exact hruns.trans (.single (.symbol id _) (hsymbol _ _))
  . exact hruns

theorem run_discover (host : Host ω) (id : Nat) (ids : List Nat) (σ : Session ω)
    : (discover host (id :: ids) σ).2
        =
      if σ.isUnprobed id then
        (discover host ids (fetchSymbol host id (σ.after host (.probe id))).2).2
      else
        (discover host ids σ).2 := by
  rw [discover]
  simp only [bind, StateT.bind, Action.get_apply]
  split
  . rfl
  . rfl

theorem runs_discover {I : Session ω → Prop}
    (hfetch : ∀ σ id, I σ → σ.isUnprobed id = true →
      Runs host Allowed σ (fetchSymbol host id (σ.after host (.probe id))).2 ∧
        I (fetchSymbol host id (σ.after host (.probe id))).2)
    (ids : List Nat) (hσ : I σ)
    : Runs host Allowed σ (discover host ids σ).2 ∧ I (discover host ids σ).2 := by
  induction ids generalizing σ with
  | nil => exact ⟨.nil σ, hσ⟩
  | cons id ids ih =>
    rw [run_discover]
    split
    . next hunprobed =>
      obtain ⟨hruns, hkept⟩ := hfetch σ id hσ hunprobed
      obtain ⟨hrest, hend⟩ := ih hkept
      exact ⟨hruns.trans hrest, hend⟩
    . exact ih hσ

theorem follows_view (hview : ∀ σ call, Allowed σ (.ask (.view call))) (id : Nat) (method : String)
    (sender : Option Address) (values : List Value)
    : Follows host Allowed (view host id method sender values).run :=
  fun σ => runs_view fun call _ _ => hview σ call

theorem follows_fetchSymbol (id : Nat) : Follows host Probing (fetchSymbol host id) :=
  fun _ => runs_fetchSymbol (fun _ _ _ => trivial) (fun _ _ _ => trivial) (fun _ _ => trivial)

theorem follows_discover (ids : List Nat) : Follows host Probing (discover host ids) := by
  intro σ
  refine (@runs_discover _ _ _ _ (fun _ => True) ?_ ids trivial).1
  intro σ id _ _
  exact ⟨.cons (.probe id) trivial (follows_fetchSymbol id _), trivial⟩

theorem follows_discoverSymbols : Follows host Probing (discoverSymbols host) := by
  apply follows_bind follows_get
  intro σ
  exact follows_discover _

theorem runs_go {I : Session ω → Prop} {command : String}
    {run : Option Address → Action (Session ω) Json}
    (hrun : ∀ σ sender, I σ →
      Runs host Allowed σ ((run sender).run σ).2 ∧ I ((run sender).run σ).2)
    (wallets : List String) (hσ : I σ)
    : Runs host Allowed σ (forEachWallet.go command run wallets σ).2 ∧
        I (forEachWallet.go command run wallets σ).2 := by
  induction wallets generalizing σ with
  | nil => exact ⟨.nil σ, hσ⟩
  | cons name names ih =>
    unfold forEachWallet.go
    simp only [bind, StateT.bind, Action.get_apply]
    cases Entries.find? σ.plan.wallets name with
    | none => exact ih hσ
    | some w =>
      obtain ⟨hruns, hkept⟩ := hrun σ (some w.address) hσ
      obtain ⟨hrest, hend⟩ := ih hkept
      exact ⟨hruns.trans hrest, hend⟩

theorem runs_forEachWallet {I : Session ω → Prop} {command : String}
    {run : Option Address → Action (Session ω) Json}
    (hrun : ∀ σ sender, I σ →
      Runs host Allowed σ ((run sender).run σ).2 ∧ I ((run sender).run σ).2)
    (wallets : List String) (hσ : I σ)
    : Runs host Allowed σ (forEachWallet command run wallets σ).2 ∧
        I (forEachWallet command run wallets σ).2 := by
  unfold forEachWallet
  split
  . exact hrun σ none hσ
  . exact runs_go hrun _ hσ

theorem follows_forEachWallet {command : String} {run : Option Address → Action (Session ω) Json}
    (hrun : ∀ sender, Follows host Allowed (run sender).run) (wallets : List String)
    : Follows host Allowed (forEachWallet command run wallets) :=
  fun _ => (@runs_forEachWallet _ _ _ _ (fun _ => True) _ _
    (fun σ sender _ => ⟨hrun sender σ, trivial⟩) wallets trivial).1

theorem follows_runCall (hrpc : ∀ σ method params, Allowed σ (.ask (.rpc method params)))
    (c : CallCommand) (args : List String) : Follows host Allowed (runCall host c args) := by
  apply follows_forEachWallet
  intro sender
  apply follows_action_bind (follows_reads _)
  intro values
  exact follows_ask fun σ => hrpc σ _ _

theorem follows_readAs (c : ReadCommand) (args : List String) (sender : Option Address)
    : Follows host Querying (readAs host c args sender).run := by
  apply follows_action_bind (follows_reads _)
  intro values
  exact follows_view (fun _ _ => trivial) _ _ _ _

theorem follows_runRead (c : ReadCommand) (args : List String)
    : Follows host Querying (runRead host c args) := by
  apply follows_bind follows_get
  intro σ
  dsimp only
  split
  . exact follows_forEachWallet (follows_readAs c args) _
  . exact follows_pure _

end Runbook.Session
