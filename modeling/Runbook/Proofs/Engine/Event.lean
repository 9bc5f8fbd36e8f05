import Runbook.Engine.Target
import Runbook.Proofs.Outcome

/-!
This module contains the events that the running of commands is made of, and what each operation
of a session may do, told in events.
-/

namespace Runbook.Session

variable {ω α β : Type}

inductive Event where
  | ask (r : Request)
  | unlock (a : Address) (password : String)
  | log (level : Level) (text : String)
  /-- The clock comes to a time. -/
  | wait (time : Nat)
  | probe (id : Nat)
  | balance (name : String) (balance : Nat)
  | symbol (id : Nat) (symbol : Option String)
  | address (id : Nat) (address : Address)

def after (host : Host ω) (σ : Session ω) : Event → Session ω
  | .ask r => ((ask host r).run σ).2
  | .unlock a password => (onTrace (Trace.outside (host.keyring.unlock a password)) σ).2
  | .log level text => (write level text σ).2
  | .wait time => { σ with trace := { σ.trace with clock := time } }
  | .probe id => (markProbed id σ).2
  | .balance name balance =>
    (modifyPlan (fun p => { p with wallets := p.wallets.setBalance name balance }) σ).2
  | .symbol id symbol => (modifyCatalogue (·.setSymbol id symbol) σ).2
  | .address id a => (modifyCatalogue (·.setAddress id (some a)) σ).2

/--
The second session comes from the first one by events, each of which was allowed when it happened.
-/
inductive Runs (host : Host ω) (Allowed : Session ω → Event → Prop)
    : Session ω → Session ω → Prop where
  | nil (σ : Session ω) : Runs host Allowed σ σ
  | cons {σ σ' : Session ω} (e : Event) (he : Allowed σ e)
      (h : Runs host Allowed (σ.after host e) σ') : Runs host Allowed σ σ'

def Follows (host : Host ω) (Allowed : Session ω → Event → Prop) (a : StateM (Session ω) α)
    : Prop :=
  ∀ σ, Runs host Allowed σ (a σ).2

def Anything (_ : Session ω) (_ : Event) : Prop :=
  True

section Runs

variable {host : Host ω} {Allowed Allowed' : Session ω → Event → Prop} {σ σ' σ'' : Session ω}

theorem Runs.single (e : Event) (he : Allowed σ e) : Runs host Allowed σ (σ.after host e) :=
  .cons e he (.nil _)

theorem Runs.trans (h : Runs host Allowed σ σ') (h' : Runs host Allowed σ' σ'')
    : Runs host Allowed σ σ'' := by
  induction h with
  | nil => exact h'
  | cons e he _ ih => exact .cons e he (ih h')

theorem Runs.mono (himp : ∀ σ e, Allowed σ e → Allowed' σ e) (h : Runs host Allowed σ σ')
    : Runs host Allowed' σ σ' := by
  induction h with
  | nil => exact .nil _
  | cons e he _ ih => exact .cons e (himp _ e he) ih

theorem Runs.anything (h : Runs host Allowed σ σ') : Runs host Anything σ σ' :=
  h.mono fun _ _ _ => trivial

end Runs

section Follows

variable {host : Host ω} {Allowed : Session ω → Event → Prop}

theorem Follows.runs {a : StateM (Session ω) α} (ha : Follows host Allowed a) {σ σ' : Session ω}
    {x : α} (h : a σ = (x, σ')) : Runs host Allowed σ σ' := by
  have := ha σ
  rwa [h] at this

theorem Follows.mono {Allowed' : Session ω → Event → Prop}
    (himp : ∀ σ e, Allowed σ e → Allowed' σ e) {a : StateM (Session ω) α}
    (ha : Follows host Allowed a) : Follows host Allowed' a :=
  fun σ => (ha σ).mono himp

theorem follows_pure (x : α) : Follows host Allowed (pure x) :=
  fun σ => .nil σ

theorem follows_get : Follows host Allowed get :=
  fun σ => .nil σ

theorem follows_bind {a : StateM (Session ω) α} {f : α → StateM (Session ω) β}
    (ha : Follows host Allowed a) (hf : ∀ x, Follows host Allowed (f x))
    : Follows host Allowed (a >>= f) :=
  fun σ => (ha σ).trans (hf _ _)

theorem follows_return (x : α) : Follows host Allowed (pure x : Action (Session ω) α).run :=
  fun σ => .nil σ

theorem follows_getAction : Follows host Allowed (get : Action (Session ω) (Session ω)).run :=
  fun σ => .nil σ

theorem follows_fail (kind : FaultKind) (text : String)
    : Follows host Allowed (Action.fail kind text : Action (Session ω) α).run :=
  fun σ => .nil σ

theorem follows_perform {a : StateM (Session ω) α} (ha : Follows host Allowed a)
    : Follows host Allowed (Action.perform a).run :=
  fun σ => ha σ

theorem follows_mapError {a : Action (Session ω) α} (f : Fault → Fault)
    (ha : Follows host Allowed a.run) : Follows host Allowed (a.mapError f).run :=
  fun σ => ha σ

theorem follows_action_bind {a : Action (Session ω) α} {f : α → Action (Session ω) β}
    (ha : Follows host Allowed a.run) (hf : ∀ x, Follows host Allowed (f x).run)
    : Follows host Allowed (a >>= f).run := by
  intro σ
  have hσ := ha σ
  rcases Action.run_bind_cases a f σ with ⟨e, σ', h, hbind⟩ | ⟨x, σ', h, hbind⟩
  . rw [h] at hσ
    rw [hbind]
    exact hσ
  . rw [h] at hσ
    rw [hbind]
    exact hσ.trans (hf x σ')

theorem Runs.of_run_bind {a : Action (Session ω) α} {f : α → Action (Session ω) β}
    {σ₀ σ σ'' : Session ω} {y : β} (hruns : Runs host Allowed σ₀ σ)
    (ha : Follows host Allowed a.run) (h : (a >>= f).run σ = (.ok y, σ''))
    : ∃ x σ', Runs host Allowed σ₀ σ' ∧ (f x).run σ' = (.ok y, σ'') := by
  obtain ⟨x, σ', hx, hf⟩ := Action.exists_of_run_bind h
  exact ⟨x, σ', hruns.trans (ha.runs hx), hf⟩

theorem of_run_reads {f : Plan → Result α} {σ σ' : Session ω} {x : α}
    (h : (reads f).run σ = (.ok x, σ')) : f σ.plan = .ok x ∧ σ = σ' := by
  have hrun : (reads f).run σ = (f σ.plan, σ) := rfl
  rw [hrun] at h
  exact ⟨(Prod.mk.inj h).1, (Prod.mk.inj h).2⟩

theorem of_run_ask {r : Request} {σ σ' : Session ω} {answer : Result r.Answer}
    (h : (ask host r).run σ = (answer, σ'))
    : (host.node.ask r σ.trace.world).1 = answer ∧ σ.after host (.ask r) = σ' := by
  have hrun : (ask host r).run σ
      = ((host.node.ask r σ.trace.world).1, σ.after host (.ask r)) := rfl
  rw [hrun] at h
  exact Prod.mk.inj h

theorem follows_reads (f : Plan → Result α) : Follows host Allowed (reads f).run :=
  fun σ => .nil σ

theorem follows_ask {r : Request} (h : ∀ σ, Allowed σ (.ask r))
    : Follows host Allowed (ask host r).run :=
  fun σ => .single (.ask r) (h σ)

theorem follows_write {level : Level} {text : String} (h : ∀ σ, Allowed σ (.log level text))
    : Follows host Allowed (write level text) :=
  fun σ => .single (.log level text) (h σ)

theorem onTrace_bind (a : StateM (Trace ω) α) (f : α → StateM (Trace ω) β)
    : onTrace (a >>= f) = onTrace a >>= fun x => onTrace (f x) := rfl

theorem follows_unlock {a : Address} {password : String}
    (hunlock : ∀ σ, Allowed σ (.unlock a password))
    (hlog : ∀ σ level text, Allowed σ (.log level text))
    : Follows host Allowed (onTrace (Wallet.unlock host.keyring a password)) := by
  unfold Wallet.unlock
  rw [onTrace_bind]
  apply follows_bind
  . exact fun σ => .single (.unlock a password) (hunlock σ)
  . intro x
    cases x with
    | locked path =>
      rw [onTrace_bind]
      exact follows_bind (follows_write fun σ => hlog σ _ _) (fun _ => follows_pure _)
    | _ => exact follows_pure _

theorem follows_signer (w : Wallet) (hunlock : ∀ σ a password, Allowed σ (.unlock a password))
    (hlog : ∀ σ level text, Allowed σ (.log level text))
    : Follows host Allowed (onTrace (w.signer host.keyring)) := by
  unfold Wallet.signer
  dsimp only
  split
  . rw [onTrace_bind]
    apply follows_bind (follows_unlock (fun σ => hunlock σ _ _) hlog)
    intro x
    split <;> exact follows_pure _
  . rw [onTrace_bind]
    apply follows_bind (follows_pure _)
    intro x
    split <;> exact follows_pure _

end Follows

end Runbook.Session

namespace Runbook

variable {ω : Type}

/--
The second plan has nothing but other balances, symbols and addresses of instances.
-/
structure Plan.Like (p q : Plan) : Prop where
  config : q.config = p.config
  calls : q.calls = p.calls
  reads : q.reads = p.reads
  writes : q.writes = p.writes
  targets : q.targets = p.targets
  builds : q.catalogue.builds = p.catalogue.builds
  contracts : ∀ id,
    (q.catalogue.instance? id).map Instance.contract
      =
    (p.catalogue.instance? id).map Instance.contract
  names : q.catalogue.instances.map Instance.name = p.catalogue.instances.map Instance.name
  wallets : ∀ name, q.wallets.addressOf name = p.wallets.addressOf name

namespace Plan.Like

variable {p q r : Plan}

theorem refl (p : Plan) : p.Like p :=
  ⟨rfl, rfl, rfl, rfl, rfl, rfl, fun _ => rfl, rfl, fun _ => rfl⟩

theorem trans (h : p.Like q) (h' : q.Like r) : p.Like r where
  config := h'.config.trans h.config
  calls := h'.calls.trans h.calls
  reads := h'.reads.trans h.reads
  writes := h'.writes.trans h.writes
  targets := h'.targets.trans h.targets
  builds := h'.builds.trans h.builds
  contracts id := (h'.contracts id).trans (h.contracts id)
  names := h'.names.trans h.names
  wallets name := (h'.wallets name).trans (h.wallets name)

theorem kind? (h : p.Like q) (name : String) : q.kind? name = p.kind? name := by
  unfold Plan.kind?
  rw [h.calls, h.reads, h.writes]

theorem kinds {steps : List Step} (h : p.Like q)
    (hkinds : ∀ s ∈ steps, p.kind? s.command = some s.kind)
    : ∀ s ∈ steps, q.kind? s.command = some s.kind := by
  intro s hs
  rw [h.kind?]
  exact hkinds s hs

theorem instance?_isSome (h : p.Like q) (id : Nat)
    : (q.catalogue.instance? id).isSome = (p.catalogue.instance? id).isSome := by
  have := congrArg Option.isSome (h.contracts id)
  rwa [Option.isSome_map, Option.isSome_map] at this

end Plan.Like

theorem Entries.find?_update {α : Type} (es : Entries α) (name name' : String) (f : α → α)
    : find? (update es name f) name'
        =
      (find? es name').map fun v => if name' = name then f v else v := by
  induction es with
  | nil => rfl
  | cons e es ih =>
    obtain ⟨n, v⟩ := e
    have hcons : Entries.update ((n, v) :: es) name f
        = (if n = name then (n, f v) else (n, v)) :: update es name f := rfl
    rw [hcons, find?_cons]
    split
    . next hn =>
      rw [find?_cons, ih]
      split
      . next heq => simp [heq, hn]
      . rfl
    . next hn =>
      rw [find?_cons, ih]
      split
      . next heq => simp [heq, hn]
      . rfl

theorem Wallets.addressOf_setBalance (ws : Wallets) (name : String) (balance : Nat) (name' : String)
    : (ws.setBalance name balance).addressOf name' = ws.addressOf name' := by
  unfold addressOf setBalance
  rw [Entries.find?_update]
  cases Entries.find? ws name' with
  | none => rfl
  | some w =>
    simp only [Option.map_some]
    split <;> rfl

theorem Catalogue.instance?_modify (c : Catalogue) (id id' : Nat) (f : Instance → Instance)
    : (c.modify id f).instance? id'
        =
      (c.instance? id').map fun i => if id = id' then f i else i := by
  unfold modify instance?
  rw [List.getElem?_modify]
  rfl

theorem Catalogue.contract_modify (c : Catalogue) (id id' : Nat) {f : Instance → Instance}
    (hf : ∀ i, (f i).contract = i.contract)
    : ((c.modify id f).instance? id').map Instance.contract
        =
      (c.instance? id').map Instance.contract := by
  rw [instance?_modify, Option.map_map]
  congr 1
  funext i
  simp only [Function.comp]
  split
  . exact hf i
  . rfl

theorem Catalogue.names_modify (c : Catalogue) (id : Nat) {f : Instance → Instance}
    (hf : ∀ i, (f i).name = i.name)
    : (c.modify id f).instances.map Instance.name = c.instances.map Instance.name := by
  apply List.ext_getElem?
  intro id'
  show ((c.instances.modify id f).map Instance.name)[id']? = _
  rw [List.getElem?_map, List.getElem?_map, List.getElem?_modify]
  cases c.instances[id']? with
  | none => rfl
  | some i =>
    by_cases hid : id = id'
    . simp [hid, hf]
    . simp [hid]

namespace Session

variable {host : Host ω} {Allowed : Session ω → Event → Prop} {σ σ' : Session ω}

theorem after_like (host : Host ω) (σ : Session ω) (e : Event)
    : σ.plan.Like (σ.after host e).plan := by
  cases e with
  | balance name balance =>
    refine ⟨rfl, rfl, rfl, rfl, rfl, rfl, fun _ => rfl, rfl, ?_⟩
    intro name'
    exact Wallets.addressOf_setBalance ..
  | symbol id symbol =>
    refine ⟨rfl, rfl, rfl, rfl, rfl, rfl, ?_, Catalogue.names_modify _ _ (fun _ => rfl),
      fun _ => rfl⟩
    intro id'
    exact Catalogue.contract_modify _ _ _ (fun _ => rfl)
  | address id a =>
    refine ⟨rfl, rfl, rfl, rfl, rfl, rfl, ?_, Catalogue.names_modify _ _ (fun _ => rfl),
      fun _ => rfl⟩
    intro id'
    exact Catalogue.contract_modify _ _ _ (fun _ => rfl)
  | _ => exact .refl _

theorem Runs.like (h : Runs host Allowed σ σ') : σ.plan.Like σ'.plan := by
  induction h with
  | nil => exact .refl _
  | cons e _ _ ih => exact (after_like host _ e).trans ih

def address? (σ : Session ω) (id : Nat) : Option Address :=
  (σ.plan.catalogue.instance? id).bind Instance.address

theorem isDeployed_eq (σ : Session ω) (id : Nat)
    : σ.plan.isDeployed id = (σ.address? id).any (!·.isZero) := by
  unfold Plan.isDeployed address?
  cases σ.plan.catalogue.instance? id with
  | none => rfl
  | some i => rfl

theorem address?_address (host : Host ω) (σ : Session ω) (id : Nat) (a : Address) (id' : Nat)
    : (σ.after host (.address id a)).address? id'
        =
      if id = id' then (σ.plan.catalogue.instance? id').map fun _ => a else σ.address? id' := by
  show ((σ.plan.catalogue.modify id _).instance? id').bind Instance.address = _
  rw [Catalogue.instance?_modify]
  unfold address?
  cases σ.plan.catalogue.instance? id' with
  | none => simp
  | some i => split <;> rfl

theorem after_address? {e : Event} (he : ∀ id a, e ≠ .address id a) (id : Nat)
    : (σ.after host e).address? id = σ.address? id := by
  cases e with
  | address id a => exact absurd rfl (he id a)
  | symbol id' symbol =>
    show ((σ.plan.catalogue.modify id' _).instance? id).bind Instance.address = _
    rw [Catalogue.instance?_modify]
    unfold address?
    cases σ.plan.catalogue.instance? id with
    | none => rfl
    | some i =>
      simp only [Option.map_some, Option.bind_some]
      split <;> rfl
  | _ => rfl

theorem Runs.address? (h : Runs host Allowed σ σ') (hno : ∀ σ id a, ¬ Allowed σ (.address id a))
    (id : Nat) : σ'.address? id = σ.address? id := by
  induction h with
  | nil => rfl
  | cons e he _ ih =>
    rw [ih, after_address?]
    rintro id a rfl
    exact hno _ id a he

theorem after_exchanges (host : Host ω) (σ : Session ω) (e : Event)
    : ∃ new, (σ.after host e).trace.exchanges = new ++ σ.trace.exchanges ∧
        ∀ x ∈ new, e = .ask x.request := by
  cases e with
  | ask r =>
    refine ⟨[⟨σ.trace.clock, r, (host.node.ask r σ.trace.world).1⟩], rfl, ?_⟩
    intro x hx
    rw [List.mem_singleton.mp hx]
  | _ => exact ⟨[], rfl, by simp⟩

theorem Runs.exchanges (h : Runs host Allowed σ σ')
    : ∃ new, σ'.trace.exchanges = new ++ σ.trace.exchanges ∧
        ∀ x ∈ new, ∃ σ₁, Allowed σ₁ (.ask x.request) := by
  induction h with
  | nil => exact ⟨[], rfl, by simp⟩
  | @cons σ σ' e he _ ih =>
    obtain ⟨new, hnew, hall⟩ := ih
    obtain ⟨first, hfirst, hask⟩ := after_exchanges host σ e
    refine ⟨new ++ first, ?_, ?_⟩
    . rw [hnew, hfirst, List.append_assoc]
    . intro x hx
      cases List.mem_append.mp hx with
      | inl hx => exact hall x hx
      | inr hx =>
        rw [hask x hx] at he
        exact ⟨_, he⟩

theorem Runs.forall_request {P : Request → Prop} (h : Runs host Allowed σ σ')
    (hP : ∀ σ r, Allowed σ (.ask r) → P r)
    : ∃ new, σ'.trace.exchanges = new ++ σ.trace.exchanges ∧ ∀ x ∈ new, P x.request := by
  obtain ⟨new, hnew, hall⟩ := h.exchanges
  refine ⟨new, hnew, ?_⟩
  intro x hx
  obtain ⟨σ₁, hσ₁⟩ := hall x hx
  exact hP σ₁ _ hσ₁

theorem Runs.exchanges_eq (h : Runs host Allowed σ σ') (hno : ∀ σ r, ¬ Allowed σ (.ask r))
    : σ'.trace.exchanges = σ.trace.exchanges := by
  obtain ⟨new, hnew, hall⟩ := h.exchanges
  cases new with
  | nil => exact hnew
  | cons x new =>
    obtain ⟨σ₁, hσ₁⟩ := hall x (List.mem_cons_self ..)
    exact absurd hσ₁ (hno _ _)

theorem Runs.allowed (h : Runs host Allowed σ σ') {new : List Exchange}
    (hnew : σ'.trace.exchanges = new ++ σ.trace.exchanges)
    : ∀ x ∈ new, ∃ σ₁, Allowed σ₁ (.ask x.request) := by
  obtain ⟨new', hnew', hall⟩ := h.exchanges
  rw [hnew] at hnew'
  rw [List.append_cancel_right hnew']
  exact hall

end Session

end Runbook
