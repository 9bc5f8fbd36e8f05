import Runbook.Proofs.Engine.Reached
import Runbook.Proofs.Param.Placeholder
import Runbook.Proofs.Plan.Declared

/-!
This module contains the turns of wallets. A call or a read goes through its wallets one by one and
asks one question for each of them, whatever the questions before came to.
-/

namespace Runbook

variable {ω : Type}

structure Question where
  request : Request
  read : request.Answer → Result Json

namespace Plan

/--
What a call asks for a wallet. Where its parameters have no values there is nothing to ask.
-/
def callQuestion (p : Plan) (c : CallCommand) (args : List String) (sender : Option Address) :
    Result Question := do
  let values ← p.finalize c.name c.params args sender
  return ⟨.rpc c.method (values.map Value.json), pure⟩

def readQuestion (p : Plan) (c : ReadCommand) (args : List String) (sender : Option Address) :
    Result Question := do
  let values ← p.finalize c.name c.params args sender
  let (call, f) ← p.viewCall c.target c.method sender values
  return ⟨.view call, f.decodeOutputs⟩

def known (p : Plan) (names : List String) : List (String × Address) :=
  names.filterMap fun n => (Entries.find? p.wallets n).map fun w => (n, w.address)

/--
Who sends a command that goes through some wallets: each of them, or nobody if there are none.
-/
def senders (p : Plan) (wallets : List String) : List (Option Address) :=
  if wallets = [] then [none] else (p.known wallets).map fun w => some w.2

variable {p : Plan}

theorem known_cons {name : String} {w : Wallet} (hw : Entries.find? p.wallets name = some w)
    (names : List String) : p.known (name :: names) = (name, w.address) :: p.known names := by
  unfold known
  rw [List.filterMap_cons, hw]
  rfl

theorem known_cons_of_none {name : String} (hname : Entries.find? p.wallets name = none)
    (names : List String) : p.known (name :: names) = p.known names := by
  unfold known
  rw [List.filterMap_cons, hname]
  rfl

end Plan

namespace Session

variable {host : Host ω} {command : String} {question : Address → Result Question}
  {σ σ' : Session ω}

def pose (host : Host ω) (question : Result Question) : Action (Session ω) Json := do
  let q ← Action.ofResult question
  let answer ← ask host q.request
  Action.ofResult (q.read answer)

theorem pose_error (host : Host ω) (e : Fault) (σ : Session ω)
    : (pose host (.error e)).run σ = (.error e, σ) := rfl

theorem pose_ok (host : Host ω) (q : Question) (σ : Session ω)
    : (pose host (.ok q)).run σ
        =
      ((host.node.ask q.request σ.trace.world).1 >>= q.read,
        σ.after host (.ask q.request)) := by
  have hquestion : (Action.ofResult (.ok q) : Action (Session ω) Question).run σ = (.ok q, σ) := rfl
  unfold pose
  rw [Action.run_bind_ok hquestion]
  rcases Action.run_bind_cases (ask host q.request)
      (fun answer => Action.ofResult (q.read answer)) σ with
    ⟨e, _, hask, hbind⟩ | ⟨answer, _, hask, hbind⟩
  . obtain ⟨hanswer, rfl⟩ := of_run_ask hask
    rw [hbind, hanswer]
    rfl
  . obtain ⟨hanswer, rfl⟩ := of_run_ask hask
    rw [hbind, hanswer]
    rfl

theorem pose_eq_ok {question : Result Question} {j : Json}
    (h : ((pose host question).run σ).1 = .ok j)
    : ∃ q, question = .ok q ∧
        ((host.node.ask q.request σ.trace.world).1 >>= q.read) = .ok j := by
  cases question with
  | error e => cases h
  | ok q =>
    rw [pose_ok] at h
    exact ⟨q, rfl, h⟩

theorem plan_pose (host : Host ω) (question : Result Question) (σ : Session ω)
    : ((pose host question).run σ).2.plan = σ.plan := by
  cases question with
  | error e => rfl
  | ok q =>
    rw [pose_ok]
    rfl

theorem requests_pose (host : Host ω) (question : Result Question) (σ : Session ω)
    : ((pose host question).run σ).2.trace.exchanges.map Exchange.request
        =
      (question.toOption.map Question.request).toList ++
        σ.trace.exchanges.map Exchange.request := by
  cases question with
  | error e => rfl
  | ok q =>
    rw [pose_ok]
    rfl

theorem run_callAs (host : Host ω) (c : CallCommand) (args : List String) (sender : Option Address)
    (σ : Session ω)
    : (callAs host c args sender).run σ
        = (pose host (σ.plan.callQuestion c args sender)).run σ := by
  have hreads : (reads (·.finalize c.name c.params args sender)).run σ
      = (σ.plan.finalize c.name c.params args sender, σ) := rfl
  unfold callAs Plan.callQuestion
  cases hvalues : σ.plan.finalize c.name c.params args sender with
  | error e =>
    rw [hvalues] at hreads
    exact Action.run_bind_error hreads
  | ok values =>
    rw [hvalues] at hreads
    refine (Action.run_bind_ok hreads).trans ?_
    refine Eq.trans ?_ (pose_ok host ⟨.rpc c.method (values.map Value.json), pure⟩ σ).symm
    refine Prod.ext ?_ rfl
    exact (bind_pure _).symm

theorem run_readAs (host : Host ω) (c : ReadCommand) (args : List String) (sender : Option Address)
    (σ : Session ω)
    : (readAs host c args sender).run σ
        = (pose host (σ.plan.readQuestion c args sender)).run σ := by
  have hreads : (reads (·.finalize c.name c.params args sender)).run σ
      = (σ.plan.finalize c.name c.params args sender, σ) := rfl
  unfold readAs Plan.readQuestion
  cases hvalues : σ.plan.finalize c.name c.params args sender with
  | error e =>
    rw [hvalues] at hreads
    exact Action.run_bind_error hreads
  | ok values =>
    rw [hvalues] at hreads
    rw [Action.run_bind_ok hreads, run_view]
    show _ = (pose host (σ.plan.viewCall c.target c.method sender values >>= _)).run σ
    cases σ.plan.viewCall c.target c.method sender values with
    | error e => rfl
    | ok result =>
      obtain ⟨call, f⟩ := result
      exact (pose_ok host ⟨.view call, f.decodeOutputs⟩ σ).symm

/--
The wallets have their turns in order. Each is asked for once, and has its own outcome.
-/
inductive Turns (host : Host ω) (command : String) (question : Address → Result Question)
    : List (String × Address) → Session ω → List Outcome → Session ω → Prop where
  | nil (σ : Session ω) : Turns host command question [] σ [] σ
  | cons {σ σ₁ σ' : Session ω} {w : String × Address} {ws : List (String × Address)}
      {result : Result Json} {os : List Outcome}
      (h : (pose host (question w.2)).run σ = (result, σ₁))
      (hrest : Turns host command question ws σ₁ os σ')
      : Turns host command question (w :: ws) σ ({ command, wallet := some w, result } :: os) σ'

namespace Turns

variable {ws : List (String × Address)} {os : List Outcome}

theorem wallets (h : Turns host command question ws σ os σ')
    : os.map Outcome.wallet = ws.map some := by
  induction h with
  | nil => rfl
  | cons _ _ ih => rw [List.map_cons, List.map_cons, ih]

theorem plan (h : Turns host command question ws σ os σ') : σ'.plan = σ.plan := by
  induction h with
  | nil => rfl
  | @cons σ _ _ w _ _ _ hpose _ ih =>
    have hplan := plan_pose host (question w.2) σ
    rw [hpose] at hplan
    rw [ih, hplan]

theorem of_append {earlier later : List Outcome} {o : Outcome}
    (h : Turns host command question ws σ (earlier ++ o :: later) σ')
    : ∃ ws₁ w σ₁,
        Turns host command question ws₁ σ earlier σ₁ ∧
        o.wallet = some w ∧
        o.result = ((pose host (question w.2)).run σ₁).1 := by
  induction earlier generalizing ws σ with
  | nil =>
    cases h with
    | @cons _ _ _ w _ _ _ hpose _ =>
      exact ⟨[], w, σ, .nil σ, rfl, (congrArg Prod.fst hpose).symm⟩
  | cons o' earlier ih =>
    rw [List.cons_append] at h
    cases h with
    | @cons _ _ _ w' _ _ _ hpose hrest =>
      obtain ⟨ws₁, w, σ₁, hturns, hwallet, hresult⟩ := ih hrest
      exact ⟨w' :: ws₁, w, σ₁, .cons hpose hturns, hwallet, hresult⟩

theorem requests (h : Turns host command question ws σ os σ')
    : σ'.trace.exchanges.map Exchange.request
        =
      (ws.filterMap fun w => (question w.2).toOption.map Question.request).reverse ++
        σ.trace.exchanges.map Exchange.request := by
  induction h with
  | nil => rfl
  | @cons σ _ _ w _ _ _ hpose _ ih =>
    have hrequests := requests_pose host (question w.2) σ
    rw [hpose] at hrequests
    rw [ih, hrequests, List.filterMap_cons]
    cases (question w.2).toOption with
    | none => simp
    | some q => simp

end Turns

/--
A command goes through wallets: each of them has its turn, and nothing but the trace changes.
-/
structure FansOut (host : Host ω) (command : String) (wallets : List String)
    (question : Address → Result Question) (ws : List (String × Address)) (σ : Session ω)
    (os : List Outcome) (σ' : Session ω) : Prop where
  names : ws.map Prod.fst = wallets
  addresses : ∀ w ∈ ws, σ.plan.wallets.addressOf w.1 = .ok w.2
  turns : Turns host command question ws σ os σ'
  length : os.length = wallets.length
  labels : os.map Outcome.wallet = ws.map some
  requests : σ'.trace.exchanges.map Exchange.request
      =
    (ws.filterMap fun w => (question w.2).toOption.map Question.request).reverse ++
      σ.trace.exchanges.map Exchange.request
  plan : σ'.plan = σ.plan

theorem FansOut.order {ws : List (String × Address)} {os : List Outcome} {wallets : List String}
    (h : FansOut host command wallets question ws σ os σ')
    : os.map (·.wallet.map Prod.fst) = wallets.map some := by
  have hlabels := congrArg (List.map (Option.map Prod.fst)) h.labels
  rw [List.map_map, List.map_map] at hlabels
  rw [← h.names, List.map_map]
  exact hlabels

theorem turns_go {run : Option Address → Action (Session ω) Json} {p : Plan}
    (hrun : ∀ a σ, σ.plan = p → (run (some a)).run σ = (pose host (question a)).run σ)
    (names : List String) (hσ : σ.plan = p)
    : Turns host command question (p.known names) σ (forEachWallet.go command run names σ).1
        (forEachWallet.go command run names σ).2 := by
  induction names generalizing σ with
  | nil => exact .nil σ
  | cons name names ih =>
    rw [forEachWallet.go]
    simp only [bind, StateT.bind, Action.get_apply, hσ]
    cases hw : Entries.find? p.wallets name with
    | none =>
      rw [Plan.known_cons_of_none hw]
      exact ih hσ
    | some w =>
      have hpose := hrun w.address σ hσ
      have hplan := plan_pose host (question w.address) σ
      rw [← hpose, hσ] at hplan
      rw [Plan.known_cons hw]
      exact .cons hpose.symm (ih hplan)

theorem forEachWallet_of_ne_nil {wallets : List String} (h : wallets ≠ [])
    (run : Option Address → Action (Session ω) Json)
    : forEachWallet command run wallets = forEachWallet.go command run wallets := by
  cases wallets with
  | nil => exact absurd rfl h
  | cons name names => rfl

theorem eq_of_singleton_eq_append {α : Type} {x y : α} {xs ys : List α} (h : [x] = xs ++ y :: ys)
    : xs = [] ∧ y = x := by
  rcases List.singleton_eq_append_iff.mp h with ⟨rfl, hy⟩ | ⟨_, hy⟩
  . cases hy
    exact ⟨rfl, rfl⟩
  . cases hy

theorem outcomes_forEachWallet {run : Option Address → Action (Session ω) Json}
    {question : Option Address → Result Question}
    (hrun : ∀ sender σ', σ'.plan = σ.plan →
      (run sender).run σ' = (pose host (question sender)).run σ')
    (wallets : List String)
    : (forEachWallet command run wallets σ).1.map (·.wallet.map Prod.snd)
          = σ.plan.senders wallets ∧
        ∀ earlier o later,
          (forEachWallet command run wallets σ).1 = earlier ++ o :: later → ∃ ws σ₁,
            Turns host command (fun a => question (some a)) ws σ earlier σ₁ ∧
            o.result = ((pose host (question (o.wallet.map Prod.snd))).run σ₁).1 := by
  by_cases hne : wallets = []
  . subst hne
    refine ⟨rfl, fun earlier o later h => ⟨[], σ, ?_⟩⟩
    obtain ⟨rfl, rfl⟩ := eq_of_singleton_eq_append h
    exact ⟨.nil σ, congrArg Prod.fst (hrun none σ rfl)⟩
  . have hturns : Turns host command (fun a => question (some a)) (σ.plan.known wallets) σ
        (forEachWallet.go command run wallets σ).1 (forEachWallet.go command run wallets σ).2 :=
      turns_go (fun a => hrun (some a)) wallets rfl
    unfold Plan.senders
    rw [forEachWallet_of_ne_nil hne, if_neg hne]
    refine ⟨?_, fun earlier o later h => ?_⟩
    . have hlabels := congrArg (List.map (Option.map Prod.snd)) hturns.wallets
      rw [List.map_map, List.map_map] at hlabels
      exact hlabels
    . rw [h] at hturns
      obtain ⟨ws, w, σ₁, hearlier, hwallet, hresult⟩ := hturns.of_append
      refine ⟨ws, σ₁, hearlier, ?_⟩
      rw [hresult, hwallet]
      rfl

theorem run_callAs_of_plan (host : Host ω) (c : CallCommand) (args : List String)
    (sender : Option Address) {σ' : Session ω} (hplan : σ'.plan = σ.plan)
    : (callAs host c args sender).run σ'
        = (pose host (σ.plan.callQuestion c args sender)).run σ' := by
  rw [run_callAs, hplan]

theorem run_readAs_of_plan (host : Host ω) (c : ReadCommand) (args : List String)
    (sender : Option Address) {σ' : Session ω} (hplan : σ'.plan = σ.plan)
    : (readAs host c args sender).run σ'
        = (pose host (σ.plan.readQuestion c args sender)).run σ' := by
  rw [run_readAs, hplan]

theorem runRead_of_isDeployed (host : Host ω) {c : ReadCommand} (args : List String)
    (hdeployed : σ.plan.isDeployed c.target = true)
    : runRead host c args σ = forEachWallet c.name (readAs host c args) c.wallets σ := by
  unfold runRead
  simp only [bind, StateT.bind, Action.get_apply]
  exact congrFun (if_pos hdeployed) σ

theorem runRead_of_undeployed (host : Host ω) {c : ReadCommand} (args : List String)
    (hundeployed : σ.plan.isDeployed c.target = false)
    : ∃ note, runRead host c args σ
        = ([{ command := c.name, result := fail .resolution note }], σ) := by
  unfold runRead
  simp only [bind, StateT.bind, Action.get_apply]
  exact ⟨_, congrFun (if_neg (Bool.eq_false_iff.mp hundeployed)) σ⟩

end Session

end Runbook
