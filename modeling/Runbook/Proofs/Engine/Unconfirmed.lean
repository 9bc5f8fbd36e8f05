import Runbook.Proofs.Engine.Placed

/-!
This module contains what a deployment leaves behind that was sent and then not confirmed, be it
that it was reverted, took too long or was no longer waited for: the instance stays where the
creation was to put it, and it is never deployed again.
-/

namespace Runbook.Session

variable {ω : Type} {host : Host ω} {observe : StepOutcome → ω → ω} {target : String}
variable {args : List String} {σ σ' σ'' : Session ω} {s : Step} {c : WriteCommand} {id : Nat}

def Candid (xs : List Exchange) : Prop :=
  ∀ hash r a, (hash, r) ∈ receipts xs → r.contract = some a →
    ∀ t, (t, .ok hash) ∈ broadcasts xs → t.transaction.recipient = none

theorem Candid.of_suffix {xs ys : List Exchange} (h : Candid ys) (hsuffix : xs <:+ ys)
    : Candid xs := by
  intro hash r a hmem hcontract t ht
  refine h hash r a ?_ hcontract t (mem_broadcasts_of_suffix hsuffix ht)
  obtain ⟨new, rfl⟩ := hsuffix
  rw [receipts_append]
  exact List.mem_append_right _ hmem

theorem isDeployed_of_address? (h : σ'.address? id = σ.address? id)
    : σ'.plan.isDeployed id = σ.plan.isDeployed id := by
  rw [isDeployed_eq, isDeployed_eq, h]

theorem Wrote.address?_of_isDeployed {o : Outcome} {new : List Exchange}
    (h : Wrote c σ o σ' new) (hdeployed : σ.plan.isDeployed id = true)
    : σ'.address? id = σ.address? id := by
  cases hresult : o.result with
  | error e => exact (h.failed e hresult).2.2 id
  | ok v =>
    obtain ⟨hash, htransaction, rfl⟩ := h.succeeded v hresult
    obtain ⟨t, hmem⟩ := (h.sent hash).mp ⟨hresult, htransaction⟩
    cases hrecipient : t.transaction.recipient with
    | some a => exact h.called t hash hmem (by rw [hrecipient]; rfl) id
    | none =>
      obtain ⟨id', sender, _, hundeployed, _, _, haddress⟩ := h.deployed t hash hmem hrecipient
      have hne : id ≠ id' := by
        rintro rfl
        exact Bool.false_ne_true (hundeployed.symm.trans hdeployed)
      rw [haddress, if_neg hne]

theorem isSome_recipient_of_isDeployed {new : List Exchange} {t : SignedTransaction}
    {answer : Result Hash} (htarget : c.target = some id)
    (hdeployed : σ.plan.isDeployed id = true)
    (hnew : (runWrite host c args σ).2.trace.exchanges = new ++ σ.trace.exchanges)
    (hmem : (t, answer) ∈ broadcasts new) : t.transaction.recipient.isSome := by
  obtain ⟨r, σ₁, hprepare, rfl, -, -⟩ := exists_prepared hnew hmem
  by_contra hnone
  rw [Option.not_isSome_iff_eq_none] at hnone
  obtain ⟨id', value, -, htarget', hundeployed, -⟩ := deploys_of_prepare hprepare hnone
  cases htarget.symm.trans htarget'
  exact absurd (hundeployed.symm.trans hdeployed) Bool.false_ne_true

theorem address?_runWrite (host : Host ω) (c : WriteCommand) (args : List String)
    (σ : Session ω) (hdeployed : σ.plan.isDeployed id = true)
    : (runWrite host c args σ).2.address? id = σ.address? id := by
  obtain ⟨new, hwrote⟩ := @wrote_of_run _ host σ _ c args _ rfl
  exact hwrote.address?_of_isDeployed hdeployed

theorem address?_runCommand (host : Host ω) (name : String) (args : List String)
    (hdeployed : σ.plan.isDeployed id = true)
    : ((runCommand host name args).run σ).2.address? id = σ.address? id := by
  cases hkind : σ.plan.kind? name with
  | none =>
    rw [runCommand_of_unknown hkind]
  | some kind =>
    obtain ⟨results, σ', hrun, hcommanded⟩ := exists_commanded host args hkind
    rw [hrun]
    cases hcommanded with
    | @call c text _ =>
      have hruns : Runs host Querying (σ.after host (.log .info text)) _ :=
        follows_runCall (fun _ _ _ => trivial) c args _
      exact hruns.address? (fun _ _ _ h => h) id
    | @read c text _ =>
      have hruns : Runs host Querying (σ.after host (.log .info text)) _ :=
        follows_runRead c args _
      exact hruns.address? (fun _ _ _ h => h) id
    | @write c text _ =>
      exact address?_runWrite host c args (σ.after host (.log .info text)) hdeployed

section Step

theorem address?_adopt_of_ne {r : Receipt}
    (hother : ∀ c, σ.plan.writes.find? s.command = some c → c.target ≠ some id)
    : (adopt s r σ).2.address? id = σ.address? id := by
  unfold adopt
  cases r.contract with
  | none => rfl
  | some a =>
    dsimp only
    unfold confirmDeployment
    simp only [bind, StateT.bind, Action.get_apply]
    cases htarget : (σ.plan.writes.find? s.command).bind WriteCommand.target with
    | none => rfl
    | some id' =>
      obtain ⟨c, hc, hid⟩ := Option.bind_eq_some_iff.mp htarget
      have hne : id' ≠ id := by
        rintro rfl
        exact hother c hc hid
      dsimp only
      split
      . rfl
      . show ((σ.plan.catalogue.modify id' _).instance? id).bind Instance.address = _
        rw [Catalogue.instance?_modify]
        simp only [if_neg hne, Option.map_id']
        rfl

theorem conclude_spec (host : Host ω) (s : Step) (results : List Outcome) (hash : Hash)
    (σ : Session ω)
    : ∃ (σ₁ : Session ω) (asked : List Exchange),
        σ₁.plan = σ.plan ∧
        σ₁.trace.exchanges = asked ++ σ.trace.exchanges ∧
        broadcasts asked = [] ∧
        ((∃ o e, conclude host s results hash σ = ((o, some e), σ₁)) ∨
          ∃ o r, (hash, r) ∈ receipts asked ∧
            conclude host s results hash σ = ((o, none), (adopt s r σ₁).2)) := by
  obtain ⟨result, σ₁, asked, hawait, hwaiting, hasked, hend⟩ := await_spec host hash σ
  have hplan : σ₁.plan = σ.plan := by
    obtain ⟨_, rfl⟩ := Prod.mk.inj hawait
    rfl
  have hquiet : broadcasts asked = [] := broadcasts_of_waiting hwaiting hasked
  refine ⟨σ₁, asked, hplan, hasked, hquiet, ?_⟩
  cases result with
  | error e => exact .inl ⟨_, e, conclude_of_error hawait⟩
  | ok r =>
    refine .inr ⟨_, r, ?_, conclude_of_ok hawait⟩
    rcases hend with ⟨_, e, he⟩ | ⟨r', hreceipts, hresult⟩
    . cases he
    . split at hresult
      . cases hresult
        rw [hreceipts]
        exact List.mem_singleton.mpr rfl
      . cases hresult

inductive Wrought (host : Host ω) (s : Step) (σ : Session ω)
    : (StepOutcome × Option Fault) × Session ω → Prop where
  | unresolved (o : StepOutcome) (fault : Fault) : Wrought host s σ ((o, some fault), σ)
  | unsent {c : WriteCommand} {args : List String} {text : String} {o : Outcome} {σ₁ : Session ω}
      (hwrite : runWrite host c args (σ.after host (.log .info text)) = (o, σ₁))
      (hsent : submitted? [o] = none) (o' : StepOutcome) (fault : Fault)
      : Wrought host s σ ((o', some fault), σ₁)
  | deferred {c : WriteCommand} {args : List String} {text : String} {o : Outcome} {σ₁ : Session ω}
      (hwrite : runWrite host c args (σ.after host (.log .info text)) = (o, σ₁)) (o' : StepOutcome)
      (text' : String) : Wrought host s σ ((o', none), σ₁.after host (.log .info text'))
  | awaited {c : WriteCommand} {args : List String} {text : String} {o : Outcome} {σ₁ : Session ω}
      {hash : Hash} (hc : σ.plan.writes.find? s.command = some c)
      (hwrite : runWrite host c args (σ.after host (.log .info text)) = (o, σ₁))
      (hsent : submitted? [o] = some hash) (text' : String)
      : Wrought host s σ (conclude host s [o] hash (σ₁.after host (.log .info text')))

theorem wrought_runStep (host : Host ω) (args : List String) (hstep : s.kind = .write)
    (hkind : σ.plan.kind? s.command = some s.kind)
    : Wrought host s σ (runStep host s args σ) := by
  cases hargs : s.argsFor args with
  | error e =>
    obtain ⟨fault, hstopped⟩ := @runStep_of_unresolved _ host σ _ _ _ hargs
    rw [hstopped]
    exact .unresolved _ fault
  | ok stepArgs =>
    obtain ⟨results, σ₁, hcommand, hone⟩ := @runCommand_of_kind _ host _ _ stepArgs _ hkind
    obtain ⟨c, text, o, rfl, hc, hwrite⟩ := hone hstep
    rw [runStep_of_run hargs hcommand]
    cases hsent : submitted? [o] with
    | none =>
      obtain ⟨fault, hfinish⟩ := @finishStep_of_unsent _ host _ hstep _ hsent σ₁
      rw [hfinish]
      exact .unsent hwrite hsent _ fault
    | some hash =>
      cases hdeferred : s.deferred with
      | true =>
        obtain ⟨text', hfinish⟩ :=
          @finishStep_of_deferred _ host _ hstep hdeferred _ _ hsent σ₁
        rw [hfinish]
        exact .deferred hwrite _ text'
      | false =>
        obtain ⟨text', hconfirm⟩ := confirm_eq host s [o] hash
        rw [finishStep_of_awaited hstep hdeferred hsent, hconfirm]
        exact .awaited hc hwrite hsent text'

theorem address?_conclude {text text' : String} {o : Outcome} {hash : Hash} {σ₁ : Session ω}
    (hc : σ.plan.writes.find? s.command = some c) (hdeployed : σ.plan.isDeployed id = true)
    (hwrite : runWrite host c args (σ.after host (.log .info text)) = (o, σ₁))
    (hsent : submitted? [o] = some hash)
    (hcandid : Candid
      (conclude host s [o] hash (σ₁.after host (.log .info text'))).2.trace.exchanges)
    : (conclude host s [o] hash (σ₁.after host (.log .info text'))).2.address? id
      = σ.address? id := by
  obtain ⟨new, hwrote⟩ := wrote_of_run hwrite
  obtain ⟨σ₂, asked, hplan, hasked, _, hend⟩ :=
    conclude_spec host s [o] hash (σ₁.after host (.log .info text'))
  have hwaited : σ₂.address? id = σ.address? id := by
    have hsame : σ₁.address? id = σ.address? id := hwrote.address?_of_isDeployed hdeployed
    unfold address?
    rw [hplan]
    exact hsame
  rcases hend with ⟨o', e, hconclude⟩ | ⟨o', r, hreceipt, hconclude⟩
  . rw [hconclude]
    exact hwaited
  rw [hconclude] at hcandid ⊢
  rw [← hwaited]
  cases hcontract : r.contract with
  | none =>
    unfold adopt
    rw [hcontract]
    rfl
  | some a =>
    -- Only a creation could have put a contract on the receipt, and this write is none.
    apply address?_adopt_of_ne
    intro c' hc' htarget
    have hlike : σ.plan.Like σ₂.plan := by
      rw [hplan]
      exact ((follows_runWrite c args).runs hwrite).like
    rw [hlike.writes, hc] at hc'
    cases hc'
    obtain ⟨t, hmem⟩ := (submitted?_singleton hwrote hash).mp hsent
    have hsome : t.transaction.recipient.isSome :=
      @isSome_recipient_of_isDeployed _ host _ (σ.after host (.log .info text)) _ _ _ _ _
        htarget hdeployed (by rw [hwrite]; exact hwrote.exchanges) hmem
    have hadopt : Runs host Adopting σ₂ (adopt s r σ₂).2 := follows_adopt s r σ₂
    have hall : (adopt s r σ₂).2.trace.exchanges = asked ++ (new ++ σ.trace.exchanges) := by
      rw [hadopt.exchanges_eq fun _ _ h => h, hasked]
      exact congrArg (asked ++ ·) hwrote.exchanges
    have hnone : t.transaction.recipient = none := by
      rw [hall] at hcandid
      apply hcandid hash r a _ hcontract t
      . rw [broadcasts_append, broadcasts_append]
        exact List.mem_append_right _ (List.mem_append_left _ hmem)
      . rw [receipts_append]
        exact List.mem_append_left _ hreceipt
    rw [hnone] at hsome
    cases hsome

theorem address?_runStep (hkind : σ.plan.kind? s.command = some s.kind)
    (hdeployed : σ.plan.isDeployed id = true)
    (hcandid : Candid (runStep host s args σ).2.trace.exchanges)
    : (runStep host s args σ).2.address? id = σ.address? id := by
  by_cases hstep : s.kind = .write
  . have hwrought := wrought_runStep host args hstep hkind
    have hkept {c : WriteCommand} {args : List String} {text : String} {o : Outcome}
        {σ₁ : Session ω} (hwrite : runWrite host c args (σ.after host (.log .info text)) = (o, σ₁))
        : σ₁.address? id = σ.address? id := by
      have hsame := address?_runWrite host c args (σ.after host (.log .info text)) hdeployed
      rw [hwrite] at hsame
      exact hsame
    generalize runStep host s args σ = result at hwrought hcandid
    cases hwrought with
    | unresolved => rfl
    | unsent hwrite => exact hkept hwrite
    | deferred hwrite =>
      have hsame := hkept hwrite
      exact hsame
    | awaited hc hwrite hsent => exact address?_conclude hc hdeployed hwrite hsent hcandid
  . cases hargs : s.argsFor args with
    | error e =>
      obtain ⟨fault, hstopped⟩ := @runStep_of_unresolved _ host σ _ _ _ hargs
      rw [hstopped]
    | ok stepArgs =>
      obtain ⟨results, σ₁, hcommand, _⟩ := @runCommand_of_kind _ host _ _ stepArgs _ hkind
      obtain ⟨fault, hfinish, _⟩ := @finishStep_of_query _ host _ hstep results σ₁
      have hkept := address?_runCommand host s.command stepArgs hdeployed
      rw [hcommand] at hkept
      rw [runStep_of_run hargs hcommand, hfinish]
      exact hkept

end Step

/--
From the first session to the second no exchange is forgotten, and a deployed instance stays where
it is.
-/
def Stays (id : Nat) (σ σ' : Session ω) : Prop :=
  σ.trace.exchanges <:+ σ'.trace.exchanges ∧
    (σ.plan.isDeployed id = true → Candid σ'.trace.exchanges → σ'.address? id = σ.address? id)

theorem Stays.refl (id : Nat) (σ : Session ω) : Stays id σ σ :=
  ⟨List.suffix_refl _, fun _ _ => rfl⟩

theorem Stays.trans (h : Stays id σ σ') (h' : Stays id σ' σ'') : Stays id σ σ'' := by
  refine ⟨h.1.trans h'.1, ?_⟩
  intro hdeployed hcandid
  have hsame := h.2 hdeployed (hcandid.of_suffix h'.1)
  rw [← hsame]
  exact h'.2 ((isDeployed_of_address? hsame).trans hdeployed) hcandid

theorem stays_visit {position : Nat} (hkind : σ.plan.kind? s.command = some s.kind)
    : Stays id σ (visit host observe target args position s σ).2 := by
  refine ⟨(course_visit host observe target args position hkind).suffix, ?_⟩
  obtain ⟨text, hvisit⟩ := run_visit host observe target args position s σ
  rw [hvisit]
  exact @address?_runStep _ host _ (σ.after host (.log .info text)) _ _ hkind

theorem stays_runSteps {position : Nat} {steps : List Step}
    (hkinds : ∀ s ∈ steps, σ.plan.kind? s.command = some s.kind)
    : Stays id σ (runSteps host observe target args position steps σ).2 := by
  apply runSteps_relates (R := Stays id)
    (P := fun p => ∀ s ∈ steps, p.kind? s.command = some s.kind)
  . exact Stays.refl id
  . exact fun h h' => h.trans h'
  . exact fun σ _ _ => .refl id σ
  . exact fun h hkinds => h.kinds hkinds
  . exact fun s hs _ _ hkinds => stays_visit (hkinds s hs)
  . exact hkinds

theorem Executed.stays (h : Executed host σ σ') (hfit : σ.plan.TargetsFit) : Stays id σ σ' := by
  induction h with
  | refl σ => exact .refl id σ
  | @command σ _ name args _ ih =>
    have hcommand : Stays id σ ((runCommand host name args).run σ).2 :=
      ⟨(follows_runCommand name args σ).suffix,
        fun hdeployed _ => address?_runCommand host name args hdeployed⟩
    exact hcommand.trans (ih ((follows_runCommand name args σ).like.targetsFit hfit))
  | @target σ _ observe name args _ ih =>
    have htarget : Stays id σ ((runTarget host observe name args).run σ).2 :=
      runTarget_cases (.refl id σ) fun t ht =>
        stays_runSteps fun s hs => ((hfit name t ht).steps s hs).kind
    exact htarget.trans (ih ((like_runTarget host observe name args σ).targetsFit hfit))
  | @outside σ _ t ht _ ih =>
    have hrest := ih hfit
    unfold Stays at hrest
    rw [ht] at hrest
    exact hrest

theorem Executed.address? (h : Executed host σ σ') (hfit : σ.plan.TargetsFit)
    (hdeployed : σ.plan.isDeployed id = true) (hcandid : Candid σ'.trace.exchanges)
    : σ'.address? id = σ.address? id :=
  (h.stays hfit).2 hdeployed hcandid

section Unconfirmed

variable {o : StepOutcome} {fault : Fault} {new : List Exchange} {t : SignedTransaction}
variable {hash : Hash}

theorem address?_of_unconfirmed (hstep : s.kind = .write)
    (hkind : σ.plan.kind? s.command = some s.kind)
    (hc : σ.plan.writes.find? s.command = some c) (htarget : c.target = some id)
    (hrun : runStep host s args σ = ((o, some fault), σ'))
    (hnew : σ'.trace.exchanges = new ++ σ.trace.exchanges)
    (hmem : (t, .ok hash) ∈ broadcasts new) (hnone : t.transaction.recipient = none)
    : σ.plan.isDeployed id = false ∧
      ∀ id', σ'.address? id'
        = if id' = id then some (t.sender.create t.transaction.nonce) else σ.address? id' := by
  have hwrought := wrought_runStep host args hstep hkind
  generalize hresult : runStep host s args σ = result at hwrought
  rw [hrun] at hresult
  -- A deferred step does not fail, and one that has sent nothing has no creation accepted.
  cases hwrought with
  | unresolved =>
    cases hresult
    rw [List.self_eq_append_left.mp hnew] at hmem
    cases hmem
  | @unsent c args text o σ₁ hwrite hsent =>
    cases hresult
    obtain ⟨new₁, hwrote⟩ := wrote_of_run hwrite
    have hsame : new = new₁ := List.append_cancel_right (hnew.symm.trans hwrote.exchanges)
    rw [hsame] at hmem
    rw [(submitted?_singleton hwrote hash).mpr ⟨t, hmem⟩] at hsent
    cases hsent
  | deferred => cases hresult
  | @awaited c' args text o σ₁ hash' hc' hwrite hsent text' =>
    cases hc.symm.trans hc'
    obtain ⟨new₁, hwrote⟩ := wrote_of_run hwrite
    obtain ⟨σ₂, asked, hplan, hasked, hquiet, hend⟩ :=
      conclude_spec host s [o] hash' (σ₁.after host (.log .info text'))
    rcases hend with ⟨o', e, hconclude⟩ | ⟨o', r, _, hconclude⟩
    . rw [hconclude] at hresult
      cases hresult
      have hall : σ'.trace.exchanges = (asked ++ new₁) ++ σ.trace.exchanges := by
        rw [hasked, List.append_assoc]
        exact congrArg (asked ++ ·) hwrote.exchanges
      rw [List.append_cancel_right (hnew.symm.trans hall), broadcasts_append, hquiet,
        List.nil_append] at hmem
      obtain ⟨id', sender, htarget', hundeployed, hsender, _, haddress⟩ :=
        hwrote.deployed t hash hmem hnone
      cases htarget.symm.trans htarget'
      have hsigner := signer_of_broadcasts (by rw [hwrite]; exact hwrote.exchanges) hmem
      cases hsigner.symm.trans hsender
      refine ⟨hundeployed, ?_⟩
      intro id'
      unfold address?
      rw [hplan]
      exact haddress id'
    . rw [hconclude] at hresult
      cases hresult

/--
A step whose creation was accepted, and which then fails, leaves its instance where the creation was
to put it. Unless that is the zero address, the instance counts as deployed from then on: whatever
commands and targets are run, it stays there, and no write creates its contract.
-/
theorem runStep_unconfirmed (hfit : σ.plan.TargetsFit) (hstep : s.kind = .write)
    (hkind : σ.plan.kind? s.command = some s.kind)
    (hc : σ.plan.writes.find? s.command = some c) (htarget : c.target = some id)
    (hrun : runStep host s args σ = ((o, some fault), σ'))
    (hnew : σ'.trace.exchanges = new ++ σ.trace.exchanges)
    (hmem : (t, .ok hash) ∈ broadcasts new) (hnone : t.transaction.recipient = none)
    : σ.plan.isDeployed id = false ∧
      (∀ id', σ'.address? id'
        = if id' = id then some (t.sender.create t.transaction.nonce) else σ.address? id') ∧
      ((t.sender.create t.transaction.nonce).isZero = false →
        ∀ σ'', Executed host σ' σ'' → Candid σ''.trace.exchanges →
          σ''.plan.isDeployed id = true ∧
          σ''.address? id = some (t.sender.create t.transaction.nonce) ∧
          ∀ c' args' new' t' answer, c'.target = some id →
            (runWrite host c' args' σ'').2.trace.exchanges = new' ++ σ''.trace.exchanges →
            (t', answer) ∈ broadcasts new' → t'.transaction.recipient.isSome) := by
  obtain ⟨hundeployed, haddress⟩ :=
    address?_of_unconfirmed hstep hkind hc htarget hrun hnew hmem hnone
  refine ⟨hundeployed, haddress, ?_⟩
  intro hreal σ'' hexecuted hcandid
  have hplaced : σ'.address? id = some (t.sender.create t.transaction.nonce) := by
    rw [haddress, if_pos rfl]
  have hdeployed : σ'.plan.isDeployed id = true := by
    rw [isDeployed_eq, hplaced]
    simp [hreal]
  have hlike : σ.plan.Like σ'.plan := by
    have hruns : Runs host Anything σ (runStep host s args σ).2 := follows_runStep s args σ
    rw [hrun] at hruns
    exact hruns.like
  have hsame := hexecuted.address? (hlike.targetsFit hfit) hdeployed hcandid
  have hdeployed' := (isDeployed_of_address? hsame).trans hdeployed
  refine ⟨hdeployed', hsame.trans hplaced, ?_⟩
  intro c' args' new' t' answer htarget' hnew' hmem'
  exact isSome_recipient_of_isDeployed htarget' hdeployed' hnew' hmem'

end Unconfirmed

theorem runStep_reverted
    : ∃ (host : Host Unit) (σ σ' : Session Unit) (o : StepOutcome) (fault : Fault)
        (new : List Exchange) (t : SignedTransaction),
        σ.Reachable ∧
        σ.plan.writes.find? mintStep.command = some mintCommand ∧
        runStep host mintStep [] σ = ((o, some fault), σ') ∧
        fault.kind = .confirmation .reverted ∧
        σ'.trace.exchanges = new ++ σ.trace.exchanges ∧
        (t, .ok [1]) ∈ broadcasts new ∧
        t.transaction.recipient = none ∧
        Candid σ'.trace.exchanges ∧
        σ.plan.isDeployed 0 = false ∧
        σ'.plan.isDeployed 0 = true ∧
        σ'.address? 0 = some mintedAddress := by
  obtain ⟨t, hchecked⟩ := exists_launch
  let reverted : Receipt := ⟨false, some 1, none⟩
  let host : Host Unit := mintingHost (fun _ => .ok []) (some .settled) (some reverted)
  let σ : Session Unit := { plan := launchPlan, trace := { world := () } }
  have hσ : σ.Reachable := .start hchecked _
  obtain ⟨signed, hsign⟩ := Option.isSome_iff_exists.mp isSome_sign_mint
  obtain ⟨htransaction, hsender⟩ := eq_of_sign? hsign
  obtain ⟨o, σ₁, new, hstep, hnew, hbroadcasts, hreceipts, _⟩ :=
    runStep_mint (fun _ => .ok []) reverted launchBuild.interface.functions hsign { world := () }
  have htimeout : 0 < (Duration.ofSeconds 600).nanos := by decide
  obtain ⟨σ', hawait⟩ :=
    @await_of_settled _ host [1] reverted rfl htimeout (fun _ => rfl) (fun _ => rfl) σ₁
  have hrun : runStep host mintStep [] σ
      = (({ command := "mint", results := [o] }, some (waitFault [1] .reverted)), σ') :=
    hstep.trans (conclude_of_error hawait)
  obtain ⟨_, _, asked, hawait', hwaiting, hasked, _⟩ := await_spec host [1] σ₁
  cases hawait.symm.trans hawait'
  have hall : σ'.trace.exchanges = asked ++ new := by
    rw [hasked, hnew, List.append_nil]
  have hone : broadcasts (asked ++ new) = [(signed, .ok [1])] := by
    rw [broadcasts_append, broadcasts_of_waiting hwaiting hasked, hbroadcasts]
    rfl
  have hnone : signed.transaction.recipient = none := by
    rw [htransaction]
    rfl
  have hmem : (signed, .ok [1]) ∈ broadcasts (asked ++ new) := by
    rw [hone]
    exact List.mem_singleton.mpr rfl
  have hcandid : Candid σ'.trace.exchanges := by
    rw [hall]
    intro hash r a _ _ signed' hmem'
    rw [hone] at hmem'
    cases List.mem_singleton.mp hmem'
    exact hnone
  have hnew' : σ'.trace.exchanges = (asked ++ new) ++ σ.trace.exchanges :=
    hall.trans (List.append_nil _).symm
  obtain ⟨hundeployed, haddress, hlater⟩ :=
    @runStep_unconfirmed _ host [] σ σ' mintStep mintCommand 0 _ _ (asked ++ new) signed [1]
      hσ.targetsFit rfl rfl rfl rfl hrun hnew' hmem hnone
  have hminted : signed.sender.create signed.transaction.nonce = mintedAddress := by
    rw [hsender, htransaction]
    exact create_mint
  rw [hminted] at hlater
  obtain ⟨hdeployed, hplaced, _⟩ := hlater (by decide) σ' (.refl σ') hcandid
  exact ⟨host, σ, σ', _, _, asked ++ new, signed, hσ, rfl, hrun, rfl, hnew', hmem, hnone, hcandid,
    hundeployed, hdeployed, hplaced⟩

end Runbook.Session
