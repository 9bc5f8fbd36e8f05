import Runbook.Proofs.Abi.Call
import Runbook.Proofs.Engine.Turns
import Runbook.Proofs.Param.Unresolved

/-!
This module contains which failures of calls and reads stop a target: arguments and parameters that
get no value, and reads of what is not deployed. Targets go on behind failures of all other kinds.
-/

namespace Runbook

variable {ω : Type}

namespace Result

variable {α β : Type} {r : Result α}

/--
The result hangs on something that has no value.
-/
def Unresolved (r : Result α) : Prop :=
  ∃ e, r = .error e ∧ e.kind = .resolution

theorem not_unresolved_ok (x : α) : ¬ Unresolved (.ok x) := by
  rintro ⟨e, h, _⟩
  cases h

theorem unresolved_error_iff {e : Fault}
    : Unresolved (.error e : Result α) ↔ e.kind = .resolution := by
  constructor
  . rintro ⟨_, ⟨⟩, hkind⟩
    exact hkind
  . exact fun hkind => ⟨e, rfl, hkind⟩

theorem OnlyFails.unresolved_iff (h : OnlyFails .resolution r)
    : r.Unresolved ↔ ∃ e, r = .error e := by
  constructor
  . rintro ⟨e, he, _⟩
    exact ⟨e, he⟩
  . rintro ⟨e, he⟩
    exact ⟨e, he, h e he⟩

theorem OnlyFails.not_unresolved {kind : FaultKind} (h : OnlyFails kind r)
    (hkind : kind ≠ .resolution) : ¬ r.Unresolved := by
  rintro ⟨e, he, hresolution⟩
  exact hkind ((h e he).symm.trans hresolution)

theorem unresolved_bind_iff {f : α → Result β} (hf : ∀ x, r = .ok x → ¬ (f x).Unresolved)
    : (r >>= f).Unresolved ↔ r.Unresolved := by
  cases r with
  | error e => exact unresolved_error_iff.trans unresolved_error_iff.symm
  | ok x => exact iff_of_false (hf x rfl) (not_unresolved_ok x)

end Result

theorem Catalogue.onlyFails_buildOf (c : Catalogue) (id : Nat)
    : Result.OnlyFails .validation (c.buildOf id) := by
  unfold buildOf
  split
  . exact Result.onlyFails_fail _
  . split
    . exact Result.onlyFails_ok _
    . exact Result.onlyFails_fail _

theorem Abi.Interface.onlyFails_find (i : Interface) (method : String) (arity : Nat)
    : Result.OnlyFails .codec (i.find method arity) := by
  unfold find
  dsimp only
  split
  . exact Result.onlyFails_fail _
  . split
    . exact Result.onlyFails_ok _
    . exact Result.onlyFails_fail _

theorem Abi.Function.onlyFails_decodeOutputs (f : Function) (data : Bytes)
    : Result.OnlyFails .codec (f.decodeOutputs data) := by
  have hwords (words : List Nat) : Result.OnlyFails .codec (if words.isEmpty then
      fail .codec ("failed to decode output of '" ++ f.name ++ "'")
      else pure (Json.array (words.map fun n => .string (toString n)))) := by
    split
    . exact Result.onlyFails_fail _
    . exact Result.onlyFails_ok _
  unfold decodeOutputs
  split
  . exact Result.onlyFails_ok _
  . exact Result.onlyFails_ok _
  . exact hwords _

def Node.NeverUnresolved (node : Node ω) : Prop :=
  ∀ r w, ¬ Result.Unresolved (node.ask r w).1

namespace Plan

variable {p : Plan} {args : List String} {sender : Option Address}

def Unfinalized (p : Plan) (command : String) (params : List Slot) (args : List String)
    (sender : Option Address) : Prop :=
  ∃ s ∈ params, ∃ e,
    s.finalize { command, args, wallets := p.wallets.directory, sender } = .error e

theorem unresolved_finalize_iff {command : String} {params : List Slot}
    : Result.Unresolved (p.finalize command params args sender) ↔
      p.Unfinalized command params args sender := by
  unfold finalize
  rw [(Result.OnlyFails.mapM (fun s => Slot.onlyFails_finalize s) params).unresolved_iff]
  constructor
  . rintro ⟨e, he⟩
    obtain ⟨s, hs, hfinalize⟩ := Session.exists_of_mapM_error he
    exact ⟨s, hs, e, hfinalize⟩
  . rintro ⟨s, hs, e, hfinalize⟩
    cases hvalues : params.mapM fun s =>
        s.finalize { command, args, wallets := p.wallets.directory, sender } with
    | error e => exact ⟨e, rfl⟩
    | ok values =>
      obtain ⟨v, hv⟩ := exists_mapM_eq_ok_iff.mp ⟨values, hvalues⟩ s hs
      rw [hfinalize] at hv
      cases hv

theorem unresolved_callQuestion_iff {c : CallCommand}
    : (p.callQuestion c args sender).Unresolved ↔ p.Unfinalized c.name c.params args sender := by
  rw [← unresolved_finalize_iff]
  exact Result.unresolved_bind_iff fun values _ => Result.not_unresolved_ok _

theorem not_unresolved_viewCall {id : Nat} (hdeployed : p.isDeployed id = true) (method : String)
    (values : List Value) : ¬ (p.viewCall id method sender values).Unresolved := by
  have haddress : (p.catalogue.instance? id).bind Instance.address ≠ none := by
    intro hnone
    unfold isDeployed at hdeployed
    cases hi : p.catalogue.instance? id with
    | none =>
      rw [hi] at hdeployed
      cases hdeployed
    | some i =>
      rw [hi] at hnone hdeployed
      have hnone : i.address = none := hnone
      have hdeployed : i.address.any (!·.isZero) = true := hdeployed
      rw [hnone] at hdeployed
      cases hdeployed
  have hbuild := (p.catalogue.onlyFails_buildOf id).not_unresolved (by decide)
  unfold viewCall
  rw [Result.unresolved_bind_iff fun build _ => ?_]
  . exact hbuild
  . split
    . next hnone => exact absurd hnone haddress
    . have hfind := (build.interface.onlyFails_find method values.length).not_unresolved (by decide)
      rw [Result.unresolved_bind_iff fun f _ => ?_]
      . exact hfind
      . have hdata := (Abi.onlyFails_callData f values).not_unresolved (by decide)
        exact mt (Result.unresolved_bind_iff fun data _ => Result.not_unresolved_ok _).mp hdata

theorem unresolved_readQuestion_iff {c : ReadCommand} (hdeployed : p.isDeployed c.target = true)
    : (p.readQuestion c args sender).Unresolved ↔ p.Unfinalized c.name c.params args sender := by
  rw [← unresolved_finalize_iff]
  refine Result.unresolved_bind_iff fun values _ => ?_
  have hcall : ¬ (p.viewCall c.target c.method sender values).Unresolved :=
    not_unresolved_viewCall hdeployed c.method values
  exact mt (Result.unresolved_bind_iff fun _ _ => Result.not_unresolved_ok _).mp hcall

theorem not_unresolved_read_callQuestion {c : CallCommand} {q : Question}
    (hq : p.callQuestion c args sender = .ok q) (answer : q.request.Answer)
    : ¬ (q.read answer).Unresolved := by
  obtain ⟨values, _, hq⟩ := bind_eq_ok.mp hq
  cases hq
  exact Result.not_unresolved_ok _

theorem not_unresolved_read_readQuestion {c : ReadCommand} {q : Question}
    (hq : p.readQuestion c args sender = .ok q) (answer : q.request.Answer)
    : ¬ (q.read answer).Unresolved := by
  obtain ⟨values, _, hq⟩ := bind_eq_ok.mp hq
  obtain ⟨⟨call, f⟩, _, hq⟩ := bind_eq_ok.mp hq
  cases hq
  exact (f.onlyFails_decodeOutputs answer).not_unresolved (by decide)

end Plan

namespace Session

variable {host : Host ω} {σ σ' : Session ω} {args : List String}

theorem unresolved_pose_iff (hnode : host.node.NeverUnresolved) {question : Result Question}
    (hread : ∀ q, question = .ok q → ∀ answer, ¬ (q.read answer).Unresolved) (σ : Session ω)
    : Result.Unresolved ((pose host question).run σ).1 ↔ question.Unresolved := by
  cases question with
  | error e =>
    rw [pose_error]
    exact Result.unresolved_error_iff.trans Result.unresolved_error_iff.symm
  | ok q =>
    rw [pose_ok, Result.unresolved_bind_iff fun answer _ => hread q rfl answer]
    exact iff_of_false (hnode q.request σ.trace.world) (Result.not_unresolved_ok q)

theorem unresolved_forEachWallet_iff (hnode : host.node.NeverUnresolved) {command : String}
    {run : Option Address → Action (Session ω) Json} {question : Option Address → Result Question}
    (hrun : ∀ sender σ', σ'.plan = σ.plan →
      (run sender).run σ' = (pose host (question sender)).run σ')
    (hread : ∀ sender q, question sender = .ok q → ∀ answer, ¬ (q.read answer).Unresolved)
    (wallets : List String)
    : (∀ o ∈ (forEachWallet command run wallets σ).1,
        (o.result.Unresolved ↔ (question (o.wallet.map Prod.snd)).Unresolved)) ∧
      ((∃ o ∈ (forEachWallet command run wallets σ).1, o.result.Unresolved) ↔
        ∃ sender ∈ σ.plan.senders wallets, (question sender).Unresolved) := by
  obtain ⟨hsenders, hposed⟩ := @outcomes_forEachWallet _ _ command σ _ _ hrun wallets
  have heach : ∀ o ∈ (forEachWallet command run wallets σ).1,
      (o.result.Unresolved ↔ (question (o.wallet.map Prod.snd)).Unresolved) := by
    intro o ho
    obtain ⟨earlier, later, hsplit⟩ := List.append_of_mem ho
    obtain ⟨_, σ₁, _, hresult⟩ := hposed earlier o later hsplit
    rw [hresult, unresolved_pose_iff hnode (hread _)]
  refine ⟨heach, ?_⟩
  rw [← hsenders]
  constructor
  . rintro ⟨o, ho, hunresolved⟩
    exact ⟨_, List.mem_map_of_mem ho, (heach o ho).mp hunresolved⟩
  . rintro ⟨sender, hmem, hunresolved⟩
    obtain ⟨o, ho, rfl⟩ := List.mem_map.mp hmem
    exact ⟨o, ho, (heach o ho).mpr hunresolved⟩

theorem unresolved_runCall_iff (hnode : host.node.NeverUnresolved) (c : CallCommand)
    (args : List String)
    : (∀ o ∈ (runCall host c args σ).1,
        (o.result.Unresolved ↔
          σ.plan.Unfinalized c.name c.params args (o.wallet.map Prod.snd))) ∧
      ((∃ o ∈ (runCall host c args σ).1, o.result.Unresolved) ↔
        ∃ sender ∈ σ.plan.senders c.wallets,
          σ.plan.Unfinalized c.name c.params args sender) := by
  simp only [← Plan.unresolved_callQuestion_iff]
  exact unresolved_forEachWallet_iff hnode (fun sender _ => run_callAs_of_plan host c args sender)
    (fun _ _ => Plan.not_unresolved_read_callQuestion) c.wallets

theorem unresolved_runRead_iff (hnode : host.node.NeverUnresolved) {c : ReadCommand}
    (args : List String) (hdeployed : σ.plan.isDeployed c.target = true)
    : (∀ o ∈ (runRead host c args σ).1,
        (o.result.Unresolved ↔
          σ.plan.Unfinalized c.name c.params args (o.wallet.map Prod.snd))) ∧
      ((∃ o ∈ (runRead host c args σ).1, o.result.Unresolved) ↔
        ∃ sender ∈ σ.plan.senders c.wallets,
          σ.plan.Unfinalized c.name c.params args sender) := by
  rw [runRead_of_isDeployed host args hdeployed]
  simp only [← Plan.unresolved_readQuestion_iff hdeployed]
  exact unresolved_forEachWallet_iff hnode (fun sender _ => run_readAs_of_plan host c args sender)
    (fun _ _ => Plan.not_unresolved_read_readQuestion) c.wallets

theorem unresolved_runRead_of_undeployed (host : Host ω) {c : ReadCommand} (args : List String)
    (hundeployed : σ.plan.isDeployed c.target = false)
    : ∃ o, (runRead host c args σ).1 = [o] ∧ o.result.Unresolved := by
  obtain ⟨note, hrun⟩ := runRead_of_undeployed host args hundeployed
  rw [hrun]
  exact ⟨_, rfl, _, rfl, rfl⟩

end Session

/--
A call or a read that cannot go through as a step: an argument of the step is missing, a parameter
has no value for one of the wallets, or what is to be read is not deployed.
-/
inductive Step.Stuck (p : Plan) (args : List String) (s : Step) : Prop where
  | unsupplied {e : Fault} (h : s.argsFor args = .error e)
  | call {c : CallCommand} {stepArgs : List String} {sender : Option Address}
      (hkind : s.kind = .call) (hargs : s.argsFor args = .ok stepArgs)
      (hc : p.calls.find? s.command = some c) (hsender : sender ∈ p.senders c.wallets)
      (h : p.Unfinalized c.name c.params stepArgs sender)
  | read {c : ReadCommand} {stepArgs : List String} {sender : Option Address}
      (hkind : s.kind = .read) (hargs : s.argsFor args = .ok stepArgs)
      (hc : p.reads.find? s.command = some c) (hsender : sender ∈ p.senders c.wallets)
      (h : p.Unfinalized c.name c.params stepArgs sender)
  | undeployed {c : ReadCommand} (hkind : s.kind = .read)
      (hc : p.reads.find? s.command = some c) (h : p.isDeployed c.target = false)

namespace Session

variable {host : Host ω} {σ σ' : Session ω} {args : List String}

theorem isUnresolved_iff_stuck {s : Step} {stepArgs : List String} {results : List Outcome}
    (hnode : host.node.NeverUnresolved) (hquery : s.kind ≠ .write)
    (hargs : s.argsFor args = .ok stepArgs)
    (h : Commanded host s.command stepArgs σ s.kind results σ')
    : isUnresolved results ↔ s.Stuck σ.plan args := by
  rw [isUnresolved_iff]
  generalize hkind : s.kind = kind at h hquery
  -- By the kind of the command. What holds it up is of its own kind in each direction.
  cases h with
  | write => exact absurd rfl hquery
  | @call c text hc =>
    refine (unresolved_runCall_iff hnode c stepArgs).2.trans ?_
    constructor
    . rintro ⟨sender, hsender, h⟩
      exact .call hkind hargs hc hsender h
    . intro h
      cases h with
      | unsupplied h => cases hargs.symm.trans h
      | call _ hargs' hc' hsender h =>
        cases hargs.symm.trans hargs'
        cases hc.symm.trans hc'
        exact ⟨_, hsender, h⟩
      | read hread => cases hkind.symm.trans hread
      | undeployed hread => cases hkind.symm.trans hread
  | @read c text hc =>
    cases hdeployed : σ.plan.isDeployed c.target with
    | false =>
      obtain ⟨o, ho, hunresolved⟩ := @unresolved_runRead_of_undeployed _
        (σ.after host (.log .info text)) host c stepArgs hdeployed
      rw [ho]
      exact iff_of_true ⟨o, List.mem_singleton.mpr rfl, hunresolved⟩
        (.undeployed hkind hc hdeployed)
    | true =>
      refine (@unresolved_runRead_iff _ _ (σ.after host (.log .info text)) hnode c stepArgs
        hdeployed).2.trans ?_
      constructor
      . rintro ⟨sender, hsender, h⟩
        exact .read hkind hargs hc hsender h
      . intro h
        cases h with
        | unsupplied h => cases hargs.symm.trans h
        | call hcall => cases hkind.symm.trans hcall
        | read _ hargs' hc' hsender h =>
          cases hargs.symm.trans hargs'
          cases hc.symm.trans hc'
          exact ⟨_, hsender, h⟩
        | undeployed _ hc' h =>
          cases hc.symm.trans hc'
          rw [hdeployed] at h
          cases h

theorem isSome_fault_iff_stuck {s : Step} {observe : StepOutcome → ω → ω} {target : String}
    {position : Nat} {o : StepOutcome} {fault : Option Fault}
    (hnode : host.node.NeverUnresolved) (hkind : σ.plan.kind? s.command = some s.kind)
    (hquery : s.kind ≠ .write)
    (h : visit host observe target args position s σ = ((o, fault), σ'))
    : fault.isSome ↔ s.Stuck σ.plan args := by
  obtain ⟨text, hvisit⟩ := run_visit host observe target args position s σ
  have hfault : (runStep host s args (σ.after host (.log .info text))).1.2 = fault := by
    rw [hvisit] at h
    exact congrArg (fun r => r.1.2) h
  rw [← hfault]
  cases hargs : s.argsFor args with
  | error e =>
    obtain ⟨reason, hstep⟩ :=
      @runStep_of_unresolved _ host (σ.after host (.log .info text)) _ _ _ hargs
    rw [hstep]
    exact iff_of_true rfl (.unsupplied hargs)
  | ok stepArgs =>
    obtain ⟨results, σ₁, hrun, hcommanded⟩ :=
      @exists_commanded _ (σ.after host (.log .info text)) _ host stepArgs _ hkind
    obtain ⟨reason, hfinish, hreason⟩ := finishStep_of_query hquery results σ₁
    have hstuck : isUnresolved results ↔ s.Stuck (σ.after host (.log .info text)).plan args :=
      isUnresolved_iff_stuck hnode hquery hargs hcommanded
    rw [runStep_of_run hargs hrun, hfinish]
    exact hreason.trans hstuck

def starts (host : Host ω) (observe : StepOutcome → ω → ω) (target : String) (args : List String)
    (position : Nat) : List Step → Session ω → List (Session ω)
  | [], _ => []
  | s :: steps, σ =>
    match visit host observe target args position s σ with
    | ((_, some _), _) => [σ]
    | ((_, none), σ') => σ :: starts host observe target args (position + 1) steps σ'

theorem starts_of_fault {observe : StepOutcome → ω → ω} {target : String} {position : Nat}
    {s : Step} {steps : List Step} {o : StepOutcome} {reason : Fault}
    (h : visit host observe target args position s σ = ((o, some reason), σ'))
    : starts host observe target args position (s :: steps) σ = [σ] := by
  rw [starts, h]

theorem starts_of_done {observe : StepOutcome → ω → ω} {target : String} {position : Nat}
    {s : Step} {steps : List Step} {o : StepOutcome}
    (h : visit host observe target args position s σ = ((o, none), σ'))
    : starts host observe target args position (s :: steps) σ
        = σ :: starts host observe target args (position + 1) steps σ' := by
  rw [starts, h]

theorem length_starts_pos {steps : List Step} (h : 0 < steps.length) (host : Host ω)
    (observe : StepOutcome → ω → ω) (target : String) (args : List String) (position : Nat)
    (σ : Session ω) : 0 < (starts host observe target args position steps σ).length := by
  cases steps with
  | nil => cases h
  | cons s steps =>
    rw [starts]
    split
    . exact Nat.zero_lt_one
    . exact Nat.zero_lt_succ _

/--
A call or a read among the steps that are run stops the target just if it is stuck where it starts.
Otherwise the step behind it starts, too.
-/
structure Halts (args : List String) (position : Nat) (steps : List Step) (ss : List (Session ω))
    (halt : Option Halt) : Prop where
  stuck : ∀ i s σ, steps[i]? = some s → ss[i]? = some σ → s.kind ≠ .write →
    ((∃ h, halt = some h ∧ h.step = position + i) ↔ s.Stuck σ.plan args)
  passes : ∀ i s σ, steps[i]? = some s → ss[i]? = some σ → s.kind ≠ .write →
    ¬ s.Stuck σ.plan args → i + 1 < steps.length → i + 1 < ss.length
  last : ∀ h, halt = some h → 0 < ss.length ∧ h.step + 1 = position + ss.length

namespace Halts

variable {position : Nat} {steps : List Step} {ss : List (Session ω)} {halt : Option Halt}
  {s : Step}

theorem here {h : Halt} (hstep : h.step = position) (hs : s.kind ≠ .write → s.Stuck σ.plan args)
    : Halts args position (s :: steps) [σ] (some h) where
  stuck i s' σ' hi hσ hquery := by
    cases i with
    | zero =>
      cases hi
      cases hσ
      exact iff_of_true ⟨h, rfl, hstep⟩ (hs hquery)
    | succ i => cases hσ
  passes i s' σ' hi hσ hquery hfree := by
    cases i with
    | zero =>
      cases hi
      cases hσ
      exact absurd (hs hquery) hfree
    | succ i => cases hσ
  last h' hhalt := by
    cases hhalt
    exact ⟨Nat.zero_lt_one, congrArg (· + 1) hstep⟩

theorem later (hs : s.kind ≠ .write → ¬ s.Stuck σ.plan args)
    (hlength : 0 < steps.length → 0 < ss.length) (h : Halts args (position + 1) steps ss halt)
    : Halts args position (s :: steps) (σ :: ss) halt where
  stuck i s' σ' hi hσ hquery := by
    cases i with
    | zero =>
      cases hi
      cases hσ
      refine iff_of_false ?_ (hs hquery)
      rintro ⟨h', hhalt, hstep⟩
      have hlast := h.last h' hhalt
      omega
    | succ i =>
      rw [← h.stuck i s' σ' hi hσ hquery, Nat.add_right_comm, Nat.add_assoc]
  passes i s' σ' hi hσ hquery hfree hlt := by
    rw [List.length_cons] at hlt ⊢
    cases i with
    | zero => exact Nat.succ_lt_succ (hlength (Nat.lt_of_succ_lt_succ hlt))
    | succ i =>
      exact Nat.succ_lt_succ (h.passes i s' σ' hi hσ hquery hfree (Nat.lt_of_succ_lt_succ hlt))
  last h' hhalt := by
    have hlast := h.last h' hhalt
    rw [List.length_cons]
    omega

end Halts

theorem runSteps_halts {observe : StepOutcome → ω → ω} {target : String} {steps : List Step}
    {os : List StepOutcome} {halt : Option Halt} (hnode : host.node.NeverUnresolved)
    (position : Nat) (hkinds : ∀ s ∈ steps, σ.plan.kind? s.command = some s.kind)
    (h : runSteps host observe target args position steps σ = ((os, halt), σ'))
    : (starts host observe target args position steps σ).length = os.length ∧
      Halts args position steps (starts host observe target args position steps σ) halt := by
  -- The plan keeps the kinds of the commands from step to step.
  induction steps generalizing position σ os halt with
  | nil =>
    cases h
    refine ⟨rfl, ⟨?_, ?_, by simp⟩⟩
    . intro i s σ hs
      cases hs
    . intro i s σ hs
      cases hs
  | cons s steps ih =>
    have hkind := hkinds s (List.mem_cons_self ..)
    have hlike := like_visit host observe target args position s σ
    cases hvisit : visit host observe target args position s σ with
    | mk result σ₁ =>
      obtain ⟨o, fault⟩ := result
      rw [hvisit] at hlike
      rw [runSteps_of_visit hvisit] at h
      cases fault with
      | some reason =>
        obtain ⟨text, hproceed⟩ :=
          run_proceed_fault host observe target args position s steps o reason σ₁
        rw [hproceed] at h
        cases h
        rw [starts_of_fault hvisit]
        refine ⟨rfl, .here rfl fun hquery => ?_⟩
        exact (isSome_fault_iff_stuck hnode hkind hquery hvisit).mp rfl
      | none =>
        cases hrest : runSteps host observe target args (position + 1) steps σ₁ with
        | mk rest σ₂ =>
          obtain ⟨outcomes, halt'⟩ := rest
          rw [run_proceed_none hrest] at h
          cases h
          have hkinds' := hlike.kinds (List.forall_mem_cons.mp hkinds).2
          obtain ⟨hlength, hhalts⟩ := ih (position + 1) hkinds' hrest
          rw [starts_of_done hvisit, List.length_cons, List.length_cons, hlength]
          refine ⟨rfl, .later (fun hquery => ?_) (fun hpos => ?_) hhalts⟩
          . rw [← isSome_fault_iff_stuck hnode hkind hquery hvisit]
            exact Bool.false_ne_true
          . exact length_starts_pos hpos host observe target args (position + 1) σ₁

/--
A parameter without a value always fails for the same reason, and no other failure of a call or a
read looks like this one, but for that of a read on what is not deployed. Just these failures, and
arguments that a step cannot pass on, stop a target at a call or a read.
-/
theorem queries_halt (host : Host ω) (args : List String) (hσ : σ.Reachable)
    (hnode : host.node.NeverUnresolved)
    : (∀ (s : Slot) (scope : Scope), Result.OnlyFails .resolution (s.finalize scope)) ∧
      (∀ name c, σ.plan.calls.find? name = some c →
        ∀ o ∈ (runCall host c args σ).1,
          (o.result.Unresolved ↔
            σ.plan.Unfinalized c.name c.params args (o.wallet.map Prod.snd))) ∧
      (∀ name c, σ.plan.reads.find? name = some c →
        ∀ o ∈ (runRead host c args σ).1,
          (o.result.Unresolved ↔
            σ.plan.isDeployed c.target = false ∨
              σ.plan.Unfinalized c.name c.params args (o.wallet.map Prod.snd))) ∧
      ∀ observe name t, σ.plan.targets.find? name = some t →
        ∃ os halt σ',
          (runTarget host observe name args).run σ
            = (.ok { target := name, steps := os, halt }, σ') ∧
          (starts host observe name args 0 t.steps σ).length = os.length ∧
          Halts args 0 t.steps (starts host observe name args 0 t.steps σ) halt := by
  refine ⟨fun s _ => s.onlyFails_finalize, fun _ c _ => (unresolved_runCall_iff hnode c args).1,
    fun _ c _ o ho => ?_, fun observe name t ht => ?_⟩
  . cases hdeployed : σ.plan.isDeployed c.target with
    | false =>
      obtain ⟨o', ho', hunresolved⟩ := unresolved_runRead_of_undeployed host args hdeployed
      rw [ho', List.mem_singleton] at ho
      exact iff_of_true (ho ▸ hunresolved) (.inl rfl)
    | true =>
      rw [(unresolved_runRead_iff hnode args hdeployed).1 o ho]
      simp
  . have hfits := hσ.targetsFit name t ht
    cases hrun : runSteps host observe name args 0 t.steps σ with
    | mk result σ' =>
      obtain ⟨os, halt⟩ := result
      obtain ⟨hlength, hhalts⟩ :=
        runSteps_halts hnode 0 (fun s hs => (hfits.steps s hs).kind) hrun
      exact ⟨os, halt, σ', run_runTarget ht hrun, hlength, hhalts⟩

def heightCommand : CallCommand where
  name := "height"
  description := none
  wallets := []
  method := "eth_blockNumber"
  params := []

theorem exists_height
    : ∃ p t,
        (Plan.ofDocument silentServices twoStepDocument {}).run { world := () }
          = (.ok (p, none), t) ∧
        p.calls.find? "height" = some heightCommand ∧
        p.targets.find? "check"
          =
        some { name := "check",
               steps := [⟨"height", .call, false, some ["$0"]⟩, ⟨"height", .call, false, none⟩] } :=
  ⟨_, _, rfl, rfl, rfl⟩

theorem neverUnresolved_silentHost : silentHost.node.NeverUnresolved := by
  rintro r w ⟨e, ⟨⟩, hkind⟩
  cases hkind

theorem not_unfinalized_height (p : Plan) (args : List String) (sender : Option Address)
    : ¬ p.Unfinalized heightCommand.name heightCommand.params args sender := by
  rintro ⟨s, hs, _⟩
  cases hs

theorem queries_halt_height
    : ∃ (σ σ' : Session Unit) (os : List StepOutcome) (halt : Option Halt),
        σ.Reachable ∧
        silentHost.node.NeverUnresolved ∧
        (runTarget silentHost (fun _ w => w) "check" ["7"]).run σ
          = (.ok { target := "check", steps := os, halt }, σ') ∧
        1 < os.length ∧
        ¬ ∃ h, halt = some h ∧ h.step = 0 := by
  obtain ⟨p, t, hchecked, hcall, htarget⟩ := exists_height
  have hσ : Reachable { plan := p, trace := t } := .start hchecked t
  obtain ⟨_, _, _, hruns⟩ := queries_halt silentHost ["7"] hσ neverUnresolved_silentHost
  obtain ⟨os, halt, σ', hrun, hlength, hhalts⟩ := hruns (fun _ w => w) "check" _ htarget
  refine ⟨_, σ', os, halt, hσ, neverUnresolved_silentHost, hrun, ?_⟩
  have hargs : Step.argsFor ⟨"height", .call, false, some ["$0"]⟩ ["7"] = .ok ["7"] := by
    have htext : substituteArgs "$0" ["7"] = .ok "7" := by decide +kernel
    unfold Step.argsFor
    simp only [List.mapM_cons, htext]
    rfl
  have hfree : ¬ Step.Stuck p ["7"] ⟨"height", .call, false, some ["$0"]⟩ := by
    intro h
    cases h with
    | unsupplied h => cases hargs.symm.trans h
    | call _ _ hc _ h =>
      cases hcall.symm.trans hc
      exact not_unfinalized_height p _ _ h
    | read hkind => cases hkind
    | undeployed hkind => cases hkind
  have hstart : (starts silentHost (fun _ w => w) "check" ["7"] 0
      [⟨"height", .call, false, some ["$0"]⟩, ⟨"height", .call, false, none⟩]
      { plan := p, trace := t })[0]? = some { plan := p, trace := t } := by
    rw [starts]
    split <;> rfl
  constructor
  . rw [← hlength]
    exact hhalts.passes 0 _ _ rfl hstart (by decide) hfree Nat.one_lt_two
  . rw [hhalts.stuck 0 _ _ rfl hstart (by decide)]
    exact hfree

theorem halts_unsupplied
    : ∃ (σ σ' : Session Unit) (os : List StepOutcome) (h : Halt),
        σ.Reachable ∧
        silentHost.node.NeverUnresolved ∧
        σ.plan.calls.find? "height" = some heightCommand ∧
        (∀ args sender,
          ¬ σ.plan.Unfinalized heightCommand.name heightCommand.params args sender) ∧
        (runTarget silentHost (fun _ w => w) "check" []).run σ
          = (.ok { target := "check", steps := os, halt := some h }, σ') ∧
        h.step = 0 ∧
        h.command = "height" := by
  obtain ⟨p, t, hchecked, hcall, htarget⟩ := exists_height
  have hσ : Reachable { plan := p, trace := t } := .start hchecked t
  obtain ⟨e, hargs⟩ : ∃ e,
      Step.argsFor ⟨"height", .call, false, some ["$0"]⟩ [] = .error e := by
    have hmissing : substituteArgs "$0" [] = .error 0 := substituteArgs_token (by decide) []
    unfold Step.argsFor
    simp only [List.mapM_cons, hmissing]
    exact ⟨_, rfl⟩
  obtain ⟨text, hvisit⟩ := run_visit silentHost (fun _ w => w) "check" [] 0
    ⟨"height", .call, false, some ["$0"]⟩ { plan := p, trace := t }
  obtain ⟨fault, hstep⟩ := @runStep_of_unresolved _ silentHost
    (Session.after silentHost { plan := p, trace := t } (.log .info text)) _ _ _ hargs
  rw [hstep] at hvisit
  obtain ⟨text', hproceed⟩ := run_proceed_fault silentHost (fun _ w => w) "check" [] 0
    ⟨"height", .call, false, some ["$0"]⟩ [⟨"height", .call, false, none⟩] _ fault _
  have hrun := (runSteps_of_visit hvisit).trans hproceed
  exact ⟨_, _, _, _, hσ, neverUnresolved_silentHost, hcall, not_unfinalized_height p,
    run_runTarget htarget hrun, rfl, rfl⟩

end Session

end Runbook
