import Runbook.Proofs.Engine.Await
import Runbook.Proofs.Engine.Write

/-!
This module contains what one step of a target does to a session, and when it fails.
-/

namespace Runbook.Session

variable {ω α : Type} {host : Host ω} {σ σ' : Session ω}

theorem exists_call_of_kind {p : Plan} {name : String} (h : p.kind? name = some .call)
    : ∃ c, p.calls.find? name = some c := by
  unfold Plan.kind? at h
  split at h
  . next hcalls =>
    rw [Entries.contains_eq] at hcalls
    exact Option.isSome_iff_exists.mp hcalls
  . split at h
    . cases h
    . split at h <;> cases h

theorem exists_read_of_kind {p : Plan} {name : String} (h : p.kind? name = some .read)
    : ∃ c, p.reads.find? name = some c := by
  unfold Plan.kind? at h
  split at h
  . cases h
  . split at h
    . next hreads =>
      rw [Entries.contains_eq] at hreads
      exact Option.isSome_iff_exists.mp hreads
    . split at h <;> cases h

theorem exists_write_of_kind {p : Plan} {name : String} (h : p.kind? name = some .write)
    : ∃ c, p.writes.find? name = some c := by
  unfold Plan.kind? at h
  split at h
  . cases h
  . split at h
    . cases h
    . split at h
      . next hwrites =>
        rw [Entries.contains_eq] at hwrites
        exact Option.isSome_iff_exists.mp hwrites
      . cases h

/--
What a command comes to, by its kind. A write has the one outcome of its transaction.
-/
inductive Commanded (host : Host ω) (name : String) (args : List String) (σ : Session ω)
    : CommandKind → List Outcome → Session ω → Prop where
  | call {c : CallCommand} (text : String) (hc : σ.plan.calls.find? name = some c)
      : Commanded host name args σ .call (runCall host c args (σ.after host (.log .info text))).1
          (runCall host c args (σ.after host (.log .info text))).2
  | read {c : ReadCommand} (text : String) (hc : σ.plan.reads.find? name = some c)
      : Commanded host name args σ .read (runRead host c args (σ.after host (.log .info text))).1
          (runRead host c args (σ.after host (.log .info text))).2
  | write {c : WriteCommand} (text : String) (hc : σ.plan.writes.find? name = some c)
      : Commanded host name args σ .write
          [(runWrite host c args (σ.after host (.log .info text))).1]
          (runWrite host c args (σ.after host (.log .info text))).2

theorem exists_commanded {name : String} (host : Host ω) (args : List String) {kind : CommandKind}
    (hkind : σ.plan.kind? name = some kind)
    : ∃ results σ',
        (runCommand host name args).run σ = (.ok results, σ') ∧
        Commanded host name args σ kind results σ' := by
  unfold runCommand
  rw [Action.run_bind_ok (Action.run_get σ)]
  dsimp only
  rw [hkind]
  dsimp only
  rw [note, Action.run_bind_ok (Action.run_perform _ σ)]
  cases kind with
  | call =>
    obtain ⟨c, hc⟩ := exists_call_of_kind hkind
    rw [hc]
    exact ⟨_, _, Action.run_perform _ _, .call _ hc⟩
  | read =>
    obtain ⟨c, hc⟩ := exists_read_of_kind hkind
    rw [hc]
    exact ⟨_, _, Action.run_perform _ _, .read _ hc⟩
  | write =>
    obtain ⟨c, hc⟩ := exists_write_of_kind hkind
    rw [hc]
    dsimp only
    rw [Action.run_bind_ok (Action.run_perform _ _)]
    exact ⟨_, _, rfl, .write _ hc⟩

theorem runCommand_of_unknown {name : String} {args : List String}
    (hkind : σ.plan.kind? name = none) : ((runCommand host name args).run σ).2 = σ := by
  unfold runCommand
  rw [Action.run_bind_ok (Action.run_get σ)]
  dsimp only
  rw [hkind]
  rfl

theorem runs_runCommand {Allowed : Session ω → Event → Prop} {name : String} {args : List String}
    (hlog : ∀ σ level text, Allowed σ (.log level text))
    (hcall : ∀ c text, σ.plan.calls.find? name = some c →
      Runs host Allowed (σ.after host (.log .info text))
        (runCall host c args (σ.after host (.log .info text))).2)
    (hread : ∀ c text, σ.plan.reads.find? name = some c →
      Runs host Allowed (σ.after host (.log .info text))
        (runRead host c args (σ.after host (.log .info text))).2)
    (hwrite : ∀ c text, σ.plan.writes.find? name = some c →
      Runs host Allowed (σ.after host (.log .info text))
        (runWrite host c args (σ.after host (.log .info text))).2)
    : Runs host Allowed σ ((runCommand host name args).run σ).2 := by
  cases hkind : σ.plan.kind? name with
  | none =>
    rw [runCommand_of_unknown hkind]
    exact .nil σ
  | some kind =>
    obtain ⟨results, σ', hrun, hcommanded⟩ := exists_commanded host args hkind
    rw [hrun]
    cases hcommanded with
    | call text hc => exact .cons (.log .info text) (hlog _ _ _) (hcall _ text hc)
    | read text hc => exact .cons (.log .info text) (hlog _ _ _) (hread _ text hc)
    | write text hc => exact .cons (.log .info text) (hlog _ _ _) (hwrite _ text hc)

theorem follows_runCommand (name : String) (args : List String)
    : Follows host Running (runCommand host name args).run :=
  fun _ => runs_runCommand (fun _ _ _ => trivial)
    (fun _ _ _ => follows_runCall (fun _ _ _ => trivial) _ _ _)
    (fun _ _ _ => (follows_runRead _ _).mono running_of_querying _)
    (fun _ _ _ => follows_runWrite _ _ _)

theorem runCommand_of_kind {name : String} (args : List String) {kind : CommandKind}
    (hkind : σ.plan.kind? name = some kind)
    : ∃ results σ',
        (runCommand host name args).run σ = (.ok results, σ') ∧
        (kind = .write → ∃ c text o,
          results = [o] ∧ σ.plan.writes.find? name = some c ∧
            runWrite host c args (σ.after host (.log .info text)) = (o, σ')) := by
  obtain ⟨results, σ', hrun, hcommanded⟩ := exists_commanded host args hkind
  refine ⟨results, σ', hrun, ?_⟩
  rintro rfl
  cases hcommanded with
  | write text hc => exact ⟨_, text, _, rfl, hc, rfl⟩

def adopt (s : Step) (r : Receipt) : StateM (Session ω) Unit :=
  match r.contract with
  | some a => confirmDeployment s.command a
  | none => pure ()

def conclude (host : Host ω) (s : Step) (results : List Outcome) (hash : Hash) :
    StateM (Session ω) (StepOutcome × Option Fault) := do
  match ← onTrace (await host.node host.policy host.cancel hash).run with
  | .ok r =>
    adopt s r
    return ({ command := s.command, results, receipt := some r }, none)
  | .error e => return ({ command := s.command, results }, some e)

theorem confirm_eq (host : Host ω) (s : Step) (results : List Outcome) (hash : Hash)
    : ∃ text,
        confirm host s results hash
          = (write .info text >>= fun _ => conclude host s results hash) := by
  unfold confirm conclude
  refine ⟨_, congrArg (write .info _ >>= ·) (funext fun _ => ?_)⟩
  congr 1
  funext result
  match result with
  | .error e => rfl
  | .ok r =>
    unfold adopt
    dsimp only
    cases r.contract <;> rfl

theorem conclude_of_ok {s : Step} {results : List Outcome} {hash : Hash} {r : Receipt}
    (h : onTrace (await host.node host.policy host.cancel hash).run σ = (.ok r, σ'))
    : conclude host s results hash σ
        =
      (({ command := s.command, results, receipt := some r }, none), (adopt s r σ').2) := by
  unfold conclude
  simp only [bind, StateT.bind, h]
  rfl

theorem conclude_of_error {s : Step} {results : List Outcome} {hash : Hash} {e : Fault}
    (h : onTrace (await host.node host.policy host.cancel hash).run σ = (.error e, σ'))
    : conclude host s results hash σ = (({ command := s.command, results }, some e), σ') := by
  unfold conclude
  simp only [bind, StateT.bind, h]
  rfl

def Adopting (_ : Session ω) : Event → Prop
  | .address _ _ | .log _ _ => True
  | _ => False

theorem follows_adopt (s : Step) (r : Receipt) : Follows host Adopting (adopt s r) := by
  unfold adopt
  split
  . next a _ =>
    unfold confirmDeployment
    apply follows_bind follows_get
    intro σ
    dsimp only
    split
    . exact follows_pure _
    . split
      . exact follows_pure _
      . apply follows_bind
        . intro σ'
          exact .single (.address _ a) trivial
        . intro _
          exact follows_write fun _ => trivial
  . exact follows_pure _

theorem address?_adopt {s : Step} {r : Receipt} {c : WriteCommand} {id : Nat} {a : Address}
    (hc : σ.plan.writes.find? s.command = some c) (htarget : c.target = some id)
    (hinstance : (σ.plan.catalogue.instance? id).isSome) (hcontract : r.contract = some a)
    : (adopt s r σ).2.address? id = some a := by
  unfold adopt
  rw [hcontract]
  dsimp only
  unfold confirmDeployment
  simp only [bind, StateT.bind, Action.get_apply, hc, Option.bind_some, htarget]
  split
  . next hsame => exact beq_iff_eq.mp hsame
  . obtain ⟨i, hi⟩ := Option.isSome_iff_exists.mp hinstance
    show ((σ.plan.catalogue.modify id _).instance? id).bind Instance.address = _
    rw [Catalogue.instance?_modify, hi, Option.map_some, if_pos rfl]
    rfl

theorem broadcasts_of_waiting {hash : Hash} {σ σ' : Session ω} {new : List Exchange}
    (h : Runs host (Waiting hash) σ σ') (hnew : σ'.trace.exchanges = new ++ σ.trace.exchanges)
    : broadcasts new = [] := by
  apply broadcasts_eq_nil
  intro x hx t ht
  obtain ⟨_, hallowed⟩ := h.allowed hnew x hx
  rw [ht] at hallowed
  exact hallowed

theorem confirm_spec (host : Host ω) (s : Step) (results : List Outcome) (hash : Hash)
    (σ : Session ω)
    : ∃ receipt fault σ' new,
        confirm host s results hash σ = (({ command := s.command, results, receipt }, fault), σ') ∧
        Runs host Anything σ σ' ∧
        σ'.trace.exchanges = new ++ σ.trace.exchanges ∧
        broadcasts new = [] ∧
        (fault = none ↔ ∃ r, (hash, r) ∈ receipts new ∧ r.success) := by
  obtain ⟨text, hconfirm⟩ := confirm_eq host s results hash
  have hrun : confirm host s results hash σ
      = conclude host s results hash (σ.after host (.log .info text)) := by
    rw [hconfirm]
    rfl
  obtain ⟨result, σ₁, new, hawait, hwaiting, hnew, hend⟩ :=
    await_spec host hash (σ.after host (.log .info text))
  have hruns : Runs host Anything σ σ₁ := .cons (.log .info text) trivial hwaiting.anything
  have hquiet : broadcasts new = [] := broadcasts_of_waiting hwaiting hnew
  rw [hrun]
  -- The wait ends without a receipt, or with the one that decides.
  rcases hend with ⟨hnone, e, rfl⟩ | ⟨r, hreceipts, hresult⟩
  . rw [conclude_of_error hawait]
    refine ⟨none, some e, σ₁, new, rfl, hruns, hnew, hquiet, ?_⟩
    rw [hnone]
    simp
  . by_cases hsuccess : r.success
    . rw [if_pos hsuccess] at hresult
      rw [hresult] at hawait
      rw [conclude_of_ok hawait]
      have hadopt : Runs host Adopting σ₁ (adopt s r σ₁).2 := follows_adopt s r σ₁
      refine ⟨some r, none, _, new, rfl, hruns.trans hadopt.anything, ?_, hquiet, ?_⟩
      . rw [hadopt.exchanges_eq (fun _ _ h => h)]
        exact hnew
      . rw [hreceipts]
        simp [hsuccess]
    . rw [if_neg hsuccess] at hresult
      rw [hresult] at hawait
      rw [conclude_of_error hawait]
      refine ⟨none, _, σ₁, new, rfl, hruns, hnew, hquiet, ?_⟩
      rw [hreceipts]
      simp [hsuccess]

theorem exists_of_mapM_error {α β : Type} {f : α → Result β} {xs : List α} {e : Fault}
    (h : xs.mapM f = .error e) : ∃ x ∈ xs, f x = .error e := by
  induction xs with
  | nil => cases h
  | cons x xs ih =>
    rw [List.mapM_cons] at h
    cases hx : f x with
    | error e' =>
      rw [hx] at h
      cases h
      exact ⟨x, List.mem_cons_self .., hx⟩
    | ok b =>
      rw [hx] at h
      cases hxs : xs.mapM f with
      | error e' =>
        rw [hxs] at h
        cases h
        obtain ⟨y, hy, hfy⟩ := ih hxs
        exact ⟨y, List.mem_cons_of_mem _ hy, hfy⟩
      | ok bs =>
        rw [hxs] at h
        cases h

theorem kind_of_argsFor {s : Step} {args : List String} {e : Fault}
    (h : s.argsFor args = .error e) : e.kind = .resolution := by
  unfold Step.argsFor at h
  split at h
  . cases h
  . obtain ⟨template, _, h⟩ := exists_of_mapM_error h
    split at h
    . cases h
    . cases h
      rfl

/--
A step of a target that was run: its outcome, and what the node was asked for meanwhile, the newest
first.
-/
structure Visit where
  step : Step
  outcome : StepOutcome
  asked : List Exchange

namespace Visit

def Submitted (v : Visit) (hash : Hash) : Prop :=
  ∃ t, (t, .ok hash) ∈ broadcasts v.asked

def Confirmed (v : Visit) (hash : Hash) : Prop :=
  ∃ r, (hash, r) ∈ receipts v.asked ∧ r.success

/--
A write fails if it was not submitted, or if it was to be confirmed and was not. Anything else fails
if one of its results hangs on something that has no value.
-/
def Failed (v : Visit) : Prop :=
  match v.step.kind with
  | .write =>
    (¬ ∃ hash, v.Submitted hash) ∨
      v.step.deferred = false ∧ ¬ ∃ hash, v.Submitted hash ∧ v.Confirmed hash
  | .call | .read => ∃ o ∈ v.outcome.results, ∃ e, o.result = .error e ∧ e.kind = .resolution

theorem failed_of_write {v : Visit} (h : v.step.kind = .write)
    : v.Failed ↔ (¬ ∃ hash, v.Submitted hash) ∨
        v.step.deferred = false ∧ ¬ ∃ hash, v.Submitted hash ∧ v.Confirmed hash := by
  unfold Failed
  rw [h]

theorem failed_of_unsubmitted {v : Visit} (h : v.step.kind = .write)
    (hsubmitted : ∀ hash, ¬ v.Submitted hash) : v.Failed := by
  rw [failed_of_write h]
  exact .inl fun ⟨hash, hhash⟩ => hsubmitted hash hhash

theorem not_failed_of_deferred {v : Visit} {hash : Hash} (h : v.step.kind = .write)
    (hdeferred : v.step.deferred = true) (hsubmitted : v.Submitted hash) : ¬ v.Failed := by
  rw [failed_of_write h, hdeferred]
  rintro (hnone | ⟨hfalse, _⟩)
  . exact hnone ⟨hash, hsubmitted⟩
  . cases hfalse

theorem failed_of_awaited {v : Visit} (hash : Hash) (h : v.step.kind = .write)
    (hdeferred : v.step.deferred = false) (hsubmitted : ∀ hash', v.Submitted hash' ↔ hash = hash')
    : v.Failed ↔ ¬ v.Confirmed hash := by
  rw [failed_of_write h, hdeferred]
  constructor
  . rintro (hnone | ⟨_, hnone⟩) hconfirmed
    . exact hnone ⟨hash, (hsubmitted hash).mpr rfl⟩
    . exact hnone ⟨hash, (hsubmitted hash).mpr rfl, hconfirmed⟩
  . intro hnone
    refine .inr ⟨rfl, ?_⟩
    rintro ⟨hash', hsubmitted', hconfirmed⟩
    rw [← (hsubmitted hash').mp hsubmitted'] at hconfirmed
    exact hnone hconfirmed

theorem failed_of_query {v : Visit} (h : v.step.kind ≠ .write)
    : v.Failed ↔ ∃ o ∈ v.outcome.results, ∃ e, o.result = .error e ∧ e.kind = .resolution := by
  unfold Failed
  split
  . next hwrite => exact absurd hwrite h
  . rfl
  . rfl

end Visit

theorem isUnresolved_iff {results : List Outcome}
    : isUnresolved results ↔ ∃ o ∈ results, ∃ e, o.result = .error e ∧ e.kind = .resolution := by
  unfold isUnresolved
  rw [List.any_eq_true]
  constructor
  . rintro ⟨o, ho, h⟩
    refine ⟨o, ho, ?_⟩
    split at h
    . next e he => exact ⟨e, he, by simpa using h⟩
    . cases h
  . rintro ⟨o, ho, e, he, hkind⟩
    refine ⟨o, ho, ?_⟩
    rw [he]
    simpa using hkind

theorem runStep_of_unresolved {s : Step} {args : List String} {e : Fault}
    (h : s.argsFor args = .error e)
    : ∃ fault,
        runStep host s args σ
          =
        (({ command := s.command, results := [{ command := s.command, result := .error e }] },
          some fault), σ) := by
  unfold runStep
  dsimp only
  rw [h]
  exact ⟨_, rfl⟩

theorem runStep_of_run {s : Step} {args stepArgs : List String} {results : List Outcome}
    (h : s.argsFor args = .ok stepArgs)
    (hrun : (runCommand host s.command stepArgs).run σ = (.ok results, σ'))
    : runStep host s args σ = finishStep host s results σ' := by
  unfold runStep
  dsimp only
  rw [h]
  simp only [bind, StateT.bind, Action.outcome, hrun]

theorem finishStep_of_query {s : Step} (hkind : s.kind ≠ .write) (results : List Outcome)
    (σ : Session ω)
    : ∃ fault,
        finishStep host s results σ = (({ command := s.command, results }, fault), σ) ∧
        (fault.isSome ↔ isUnresolved results) := by
  unfold finishStep
  rw [if_pos hkind]
  split
  . next h => exact ⟨_, rfl, by simp [h]⟩
  . next h => exact ⟨_, rfl, by simp [h]⟩

theorem finishStep_of_unsent {s : Step} (hkind : s.kind = .write) {results : List Outcome}
    (h : submitted? results = none) (σ : Session ω)
    : ∃ fault,
        finishStep host s results σ = (({ command := s.command, results }, some fault), σ) := by
  unfold finishStep
  rw [if_neg (by simp [hkind]), h]
  exact ⟨_, rfl⟩

theorem finishStep_of_deferred {s : Step} (hkind : s.kind = .write) (hdeferred : s.deferred = true)
    {results : List Outcome} {hash : Hash} (h : submitted? results = some hash) (σ : Session ω)
    : ∃ text,
        finishStep host s results σ
          =
        (({ command := s.command, results }, none), σ.after host (.log .info text)) := by
  unfold finishStep
  rw [if_neg (by simp [hkind]), h]
  dsimp only
  rw [if_pos hdeferred]
  exact ⟨_, rfl⟩

theorem finishStep_of_awaited {s : Step} (hkind : s.kind = .write) (hdeferred : s.deferred = false)
    {results : List Outcome} {hash : Hash} (h : submitted? results = some hash) (σ : Session ω)
    : finishStep host s results σ = confirm host s results hash σ := by
  unfold finishStep
  rw [if_neg (by simp [hkind]), h]
  dsimp only
  rw [if_neg (by simp [hdeferred])]

theorem submitted?_singleton {c : WriteCommand} {o : Outcome} {new : List Exchange}
    (h : Wrote c σ o σ' new) (hash : Hash)
    : submitted? [o] = some hash ↔ ∃ t, (t, .ok hash) ∈ broadcasts new := by
  have hsubmitted : submitted? [o] = if o.isOk then o.transaction else none := rfl
  rw [← h.sent, hsubmitted]
  cases hresult : o.result with
  | error e =>
    have hok : o.isOk = false := by
      unfold Outcome.isOk
      rw [hresult]
    simp [hok]
  | ok v =>
    obtain ⟨hash', hhash', rfl⟩ := h.succeeded v hresult
    have hok : o.isOk = true := by
      unfold Outcome.isOk
      rw [hresult]
    rw [if_pos hok, hhash']
    constructor
    . intro h
      cases h
      exact ⟨rfl, rfl⟩
    . intro ⟨_, h⟩
      exact h

/--
What a step that runs a command of its own kind is known to do.
-/
structure Stepped (host : Host ω) (s : Step) (args : List String) (σ : Session ω)
    (outcome : StepOutcome) (fault : Option Fault) (σ' : Session ω) (new : List Exchange)
    : Prop where
  runs : Runs host Anything σ σ'
  exchanges : σ'.trace.exchanges = new ++ σ.trace.exchanges
  failed : fault.isSome ↔ (⟨s, outcome, new⟩ : Visit).Failed
  unresolved : ∀ e, s.argsFor args = .error e → fault.isSome

theorem stepped_of_unresolved {s : Step} {args : List String} {e fault : Fault}
    (h : s.argsFor args = .error e)
    : Stepped host s args σ
        { command := s.command, results := [{ command := s.command, result := .error e }] }
        (some fault) σ [] where
  runs := .nil σ
  exchanges := rfl
  failed := by
    unfold Visit.Failed
    split
    . simp [Visit.Submitted, broadcasts]
    . simp [kind_of_argsFor h]
    . simp [kind_of_argsFor h]
  unresolved _ _ := rfl

theorem exists_stepped_of_write {s : Step} {args stepArgs : List String}
    (hkind : σ.plan.kind? s.command = some s.kind) (hargs : s.argsFor args = .ok stepArgs)
    (hwrite : s.kind = .write)
    : ∃ outcome fault σ' new,
        runStep host s args σ = ((outcome, fault), σ') ∧
        Stepped host s args σ outcome fault σ' new := by
  obtain ⟨results, σ₁, hrun, hone⟩ := runCommand_of_kind stepArgs hkind
  obtain ⟨c, text, o, rfl, _, hrunWrite⟩ := hone hwrite
  have hstep := runStep_of_run hargs hrun
  have hruns : Runs host Running σ σ₁ := (follows_runCommand _ _).runs hrun
  have hresolved : ∀ e, s.argsFor args = .error e → False := by
    intro e he
    rw [hargs] at he
    cases he
  obtain ⟨new, hwrote⟩ := wrote_of_run hrunWrite
  have hnew : σ₁.trace.exchanges = new ++ σ.trace.exchanges := hwrote.exchanges
  have hnoReceipts : receipts new = [] := by
    apply receipts_eq_nil
    intro x hx hash hreceipt
    obtain ⟨_, hallowed⟩ := hruns.allowed hnew x hx
    rw [hreceipt] at hallowed
    exact hallowed
  have hsent := submitted?_singleton hwrote
  -- Without a hash the step fails, with one it does unless the wait for it fails.
  cases hsubmitted : submitted? [o] with
  | none =>
    obtain ⟨fault, hfinish⟩ := finishStep_of_unsent hwrite hsubmitted σ₁
    rw [hfinish] at hstep
    refine ⟨_, _, _, new, hstep, hruns.anything, hnew, ?_, fun e he => (hresolved e he).elim⟩
    have hfailed : (⟨s, { command := s.command, results := [o] }, new⟩ : Visit).Failed := by
      apply Visit.failed_of_unsubmitted hwrite
      intro hash h
      rw [(hsent hash).mpr h] at hsubmitted
      cases hsubmitted
    simp only [Option.isSome_some, hfailed]
  | some hash =>
    cases hdeferred : s.deferred with
    | true =>
      obtain ⟨text, hfinish⟩ := finishStep_of_deferred hwrite hdeferred hsubmitted σ₁
      rw [hfinish] at hstep
      refine ⟨_, _, _, new, hstep, (hruns.anything.trans (.single (.log .info text) trivial)), hnew,
        ?_, fun e he => (hresolved e he).elim⟩
      have hfailed : ¬ (⟨s, { command := s.command, results := [o] }, new⟩ : Visit).Failed :=
        Visit.not_failed_of_deferred hwrite hdeferred ((hsent hash).mp hsubmitted)
      simp only [Option.isSome_none, Bool.false_eq_true, hfailed]
    | false =>
      obtain ⟨receipt, fault, σ₂, new', hconfirm, hruns', hnew', hquiet, hfault⟩ :=
        confirm_spec host s [o] hash σ₁
      rw [finishStep_of_awaited hwrite hdeferred hsubmitted, hconfirm] at hstep
      refine ⟨_, _, _, new' ++ new, hstep, hruns.anything.trans hruns', ?_, ?_,
        fun e he => (hresolved e he).elim⟩
      . rw [hnew', hnew, List.append_assoc]
      . rw [Visit.failed_of_awaited hash hwrite hdeferred ?_]
        . unfold Visit.Confirmed
          rw [receipts_append, hnoReceipts, List.append_nil, ← hfault]
          cases fault <;> simp
        . intro hash'
          unfold Visit.Submitted
          rw [broadcasts_append, hquiet, List.nil_append, ← hsent, hsubmitted, Option.some_inj]

theorem exists_stepped_of_query {s : Step} {args stepArgs : List String}
    (hkind : σ.plan.kind? s.command = some s.kind) (hargs : s.argsFor args = .ok stepArgs)
    (hquery : s.kind ≠ .write)
    : ∃ outcome fault σ' new,
        runStep host s args σ = ((outcome, fault), σ') ∧
        Stepped host s args σ outcome fault σ' new := by
  obtain ⟨results, σ₁, hrun, _⟩ := runCommand_of_kind stepArgs hkind
  have hruns : Runs host Running σ σ₁ := (follows_runCommand _ _).runs hrun
  obtain ⟨new, hnew, _⟩ := hruns.exchanges
  obtain ⟨fault, hfinish, hfault⟩ := finishStep_of_query hquery results σ₁
  have hstep := runStep_of_run hargs hrun
  rw [hfinish] at hstep
  refine ⟨_, fault, σ₁, new, hstep, hruns.anything, hnew, ?_, ?_⟩
  . rw [hfault, isUnresolved_iff, Visit.failed_of_query hquery]
  . intro e he
    rw [hargs] at he
    cases he

theorem exists_stepped {s : Step} (host : Host ω) (args : List String)
    (hkind : σ.plan.kind? s.command = some s.kind)
    : ∃ outcome fault σ' new,
        runStep host s args σ = ((outcome, fault), σ') ∧
        Stepped host s args σ outcome fault σ' new := by
  cases hargs : s.argsFor args with
  | error e =>
    obtain ⟨fault, hstep⟩ := runStep_of_unresolved hargs
    exact ⟨_, _, σ, [], hstep, stepped_of_unresolved hargs⟩
  | ok stepArgs =>
    by_cases hwrite : s.kind = .write
    . exact exists_stepped_of_write hkind hargs hwrite
    . exact exists_stepped_of_query hkind hargs hwrite

end Runbook.Session
