import Runbook.Proofs.Engine.Cause
import Runbook.Proofs.Engine.Created

/-!
This module contains where instances are while commands and targets run one behind the other: what
changes their addresses, and that everything which is sent to them goes to the latest one.
-/

namespace Runbook.Session

variable {ω : Type} {host : Host ω} {σ σ' σ'' : Session ω}

/--
What is asked of a node: receipts carry a contract address other than zero only for creations.
-/
def Honest (xs : List Exchange) : Prop :=
  ∀ hash r a, (hash, r) ∈ receipts xs → r.contract = some a → a.isZero = false →
    ∀ t, (t, .ok hash) ∈ broadcasts xs → t.transaction.recipient = none

/--
No creation was accepted whose contract comes to stand at the zero address.
-/
def AvoidsZero (xs : List Exchange) : Prop :=
  ∀ t hash, (t, .ok hash) ∈ broadcasts xs → t.transaction.recipient = none →
    (t.sender.create t.transaction.nonce).isZero = false

theorem mem_broadcasts_of_suffix {xs ys : List Exchange} {b : SignedTransaction × Result Hash}
    (h : xs <:+ ys) (hmem : b ∈ broadcasts xs) : b ∈ broadcasts ys := by
  obtain ⟨new, rfl⟩ := h
  rw [broadcasts_append]
  exact List.mem_append_right _ hmem

theorem Honest.of_suffix {xs ys : List Exchange} (h : Honest ys) (hsuffix : xs <:+ ys)
    : Honest xs := by
  intro hash r a hmem hcontract hreal t ht
  refine h hash r a ?_ hcontract hreal t (mem_broadcasts_of_suffix hsuffix ht)
  obtain ⟨new, rfl⟩ := hsuffix
  rw [receipts_append]
  exact List.mem_append_right _ hmem

/--
How the addresses of instances change and are used by an event that happens while the command `name`
runs, or a step that runs it; the node was asked for `start` before. Only the question for a symbol
depends on where creations lead to, since it comes as soon as one is accepted.
-/
def Placed (start : List Exchange) (name : String) (args : List String) (σ : Session ω)
    : Event → Prop
  | .ask (.view call) =>
    (∃ c, Reads name args σ call c) ∨
      ∃ id, Asks σ call id ∧ (AvoidsZero σ.trace.exchanges → σ.Located id call.recipient)
  | .ask (.send t) => ∃ c intent, Sends name args σ t c intent
  | .address id a =>
    (∃ t, Deploys name σ id a t) ∨
      (∃ t, Adopts start name σ id a t ∧ t.transaction.recipient = none) ∨
      a.isZero = true
  | _ => True

theorem placed_of_caused {start : List Exchange} {name : String} {args : List String} {e : Event}
    (hhonest : Honest σ.trace.exchanges) (h : Caused start name args σ e)
    : Placed start name args σ e := by
  cases e with
  | ask r =>
    cases r with
    | view call =>
      rcases h with hreads | ⟨id, hasks, hreal | ⟨t, hash, hmem, hnone, hcreate⟩⟩
      . exact .inl hreads
      . exact .inr ⟨id, hasks, fun _ => ⟨hasks.address, hreal⟩⟩
      . refine .inr ⟨id, hasks, fun havoids => ⟨hasks.address, ?_⟩⟩
        rw [hcreate]
        exact havoids t hash hmem hnone
    | send t => exact h
    | _ => trivial
  | address id a =>
    obtain ⟨t, hdeploys | hadopts⟩ := h
    . exact .inl ⟨t, hdeploys⟩
    . by_cases hzero : a.isZero = true
      . exact .inr (.inr hzero)
      . obtain ⟨time, hash, r, earlier, hmined, hone, _, hcontract⟩ := hadopts.mined
        refine .inr (.inl ⟨t, hadopts, ?_⟩)
        apply hhonest hash r a _ hcontract (by simpa using hzero)
        . rw [hmined]
          show _ ∈ broadcasts (earlier ++ start)
          rw [broadcasts_append, hone]
          exact List.mem_cons_self ..
        . rw [hmined]
          exact List.mem_cons_self ..
  | _ => trivial

theorem Runs.suffix {Allowed : Session ω → Event → Prop} (h : Runs host Allowed σ σ')
    : σ.trace.exchanges <:+ σ'.trace.exchanges := by
  obtain ⟨new, hnew, _⟩ := h.exchanges
  exact ⟨new, hnew.symm⟩

theorem Runs.placed {start : List Exchange} {name : String} {args : List String}
    (h : Runs host (Caused start name args) σ σ') (hhonest : Honest σ'.trace.exchanges)
    : Runs host (Placed start name args) σ σ' := by
  induction h with
  | nil σ => exact .nil σ
  | @cons σ σ' e he h ih =>
    have hsuffix := (Runs.cons e he h).suffix
    exact .cons e (placed_of_caused (hhonest.of_suffix hsuffix) he) (ih hhonest)

/--
The second session comes from the first one by commands and by single steps of targets, each of
which consists of events that were allowed when they happened. In between everything but the plan
and what the node was asked may change.
-/
inductive Course (host : Host ω)
    (Allowed : List Exchange → String → List String → Session ω → Event → Prop)
    : Session ω → Session ω → Prop where
  | refl (σ : Session ω) : Course host Allowed σ σ
  | command {σ σ' : Session ω} (name : String) (args : List String)
      (h : Runs host (Allowed σ.trace.exchanges name args) σ ((runCommand host name args).run σ).2)
      (hrest : Course host Allowed ((runCommand host name args).run σ).2 σ')
      : Course host Allowed σ σ'
  | step {σ σ' : Session ω} {s : Step} {args stepArgs : List String}
      (hargs : s.argsFor args = .ok stepArgs)
      (h : Runs host (Allowed σ.trace.exchanges s.command stepArgs) σ (runStep host s args σ).2)
      (hrest : Course host Allowed (runStep host s args σ).2 σ') : Course host Allowed σ σ'
  | quiet {σ σ' : Session ω} (t : Trace ω) (ht : t.exchanges = σ.trace.exchanges)
      (hrest : Course host Allowed { σ with trace := t } σ') : Course host Allowed σ σ'

namespace Course

variable {Allowed : List Exchange → String → List String → Session ω → Event → Prop}

theorem trans (h : Course host Allowed σ σ') (h' : Course host Allowed σ' σ'')
    : Course host Allowed σ σ'' := by
  induction h with
  | refl => exact h'
  | command name args hruns _ ih => exact .command name args hruns (ih h')
  | step hargs hruns _ ih => exact .step hargs hruns (ih h')
  | quiet t ht _ ih => exact .quiet t ht (ih h')

theorem suffix (h : Course host Allowed σ σ') : σ.trace.exchanges <:+ σ'.trace.exchanges := by
  induction h with
  | refl => exact List.suffix_refl _
  | command _ _ hruns _ ih => exact hruns.suffix.trans ih
  | step _ hruns _ ih => exact hruns.suffix.trans ih
  | quiet t ht _ ih =>
    rw [← ht]
    exact ih

theorem placed (h : Course host Caused σ σ') (hhonest : Honest σ'.trace.exchanges)
    : Course host Placed σ σ' := by
  induction h with
  | refl σ => exact .refl σ
  | command name args hruns hrest ih =>
    exact .command name args (hruns.placed (hhonest.of_suffix hrest.suffix)) (ih hhonest)
  | step hargs hruns hrest ih =>
    exact .step hargs (hruns.placed (hhonest.of_suffix hrest.suffix)) (ih hhonest)
  | quiet t ht _ ih => exact .quiet t ht (ih hhonest)

end Course

theorem course_log (level : Level) (text : String)
    {Allowed : List Exchange → String → List String → Session ω → Event → Prop}
    : Course host Allowed σ (σ.after host (.log level text)) :=
  .quiet (σ.after host (.log level text)).trace rfl (.refl _)

theorem course_visit {s : Step} (host : Host ω) (observe : StepOutcome → ω → ω) (target : String)
    (args : List String) (position : Nat) (hkind : σ.plan.kind? s.command = some s.kind)
    : Course host Caused σ (visit host observe target args position s σ).2 := by
  obtain ⟨text, hvisit⟩ := run_visit host observe target args position s σ
  rw [hvisit]
  apply (course_log .info text).trans
  -- The world changes by the observation, once the step is over.
  have hobserved {σ₁ : Session ω} (o : StepOutcome)
      : Course host Caused σ₁ (observed observe o σ₁) :=
    .quiet (observed observe o σ₁).trace rfl (.refl _)
  cases hargs : s.argsFor args with
  | error e =>
    obtain ⟨fault, hstep⟩ :=
      @runStep_of_unresolved _ host (σ.after host (.log .info text)) _ _ _ hargs
    rw [hstep]
    exact hobserved _
  | ok stepArgs =>
    exact .step hargs (caused_runStep host hkind hargs) (hobserved _)

theorem course_runSteps {steps : List Step} (host : Host ω) (observe : StepOutcome → ω → ω)
    (target : String) (args : List String) (position : Nat)
    (hkinds : ∀ s ∈ steps, σ.plan.kind? s.command = some s.kind)
    : Course host Caused σ (runSteps host observe target args position steps σ).2 := by
  apply runSteps_relates (R := Course host Caused)
    (P := fun p => ∀ s ∈ steps, p.kind? s.command = some s.kind)
  . exact .refl
  . exact fun h h' => h.trans h'
  . exact fun _ level text => course_log level text
  . exact fun h hkinds => h.kinds hkinds
  . exact fun s hs position σ hkinds =>
      course_visit host observe target args position (hkinds s hs)
  . exact hkinds

theorem course_runTarget (host : Host ω) (observe : StepOutcome → ω → ω) (name : String)
    (args : List String) (hfit : σ.plan.TargetsFit)
    : Course host Caused σ ((runTarget host observe name args).run σ).2 :=
  runTarget_cases (.refl σ) fun t ht =>
    course_runSteps host observe name args 0 fun s hs => ((hfit name t ht).steps s hs).kind

/--
The second session comes from the first one by running commands and targets against one host. In
between everything but the plan and what the node was asked may change.
-/
inductive Executed (host : Host ω) : Session ω → Session ω → Prop where
  | refl (σ : Session ω) : Executed host σ σ
  | command {σ σ' : Session ω} (name : String) (args : List String)
      (h : Executed host ((runCommand host name args).run σ).2 σ') : Executed host σ σ'
  | target {σ σ' : Session ω} (observe : StepOutcome → ω → ω) (name : String) (args : List String)
      (h : Executed host ((runTarget host observe name args).run σ).2 σ') : Executed host σ σ'
  | outside {σ σ' : Session ω} (t : Trace ω) (ht : t.exchanges = σ.trace.exchanges)
      (h : Executed host { σ with trace := t } σ') : Executed host σ σ'

theorem Executed.caused (h : Executed host σ σ') (hfit : σ.plan.TargetsFit)
    : Course host Caused σ σ' := by
  induction h with
  | refl σ => exact .refl σ
  | @command σ _ name args _ ih =>
    exact .command name args (caused_runCommand host _ name args σ)
      (ih ((follows_runCommand name args σ).like.targetsFit hfit))
  | @target σ _ observe name args _ ih =>
    exact (course_runTarget host observe name args hfit).trans
      (ih ((like_runTarget host observe name args σ).targetsFit hfit))
  | @outside σ _ t ht _ ih => exact .quiet t ht (ih hfit)

/--
An instance comes to a new address only when the node accepts a write that deploys it, or confirms
that same write with another address. Whatever is sent for an instance goes to its latest address,
and nothing is sent for one that has none.
-/
theorem executed_placed (hσ : σ.Reachable) (h : Executed host σ σ')
    (hhonest : Honest σ'.trace.exchanges) : Course host Placed σ σ' :=
  (h.caused hσ.targetsFit).placed hhonest

section Mint

def mintStep : Step :=
  ⟨"mint", .write, false, none⟩

theorem exists_accepted {c : WriteCommand} {args : List String} {r : Ready} {hash : Hash}
    (hprepare : (prepare host c args).run σ = (.ok r, σ'))
    (hanswer : (host.node.ask (.send r.signed) σ'.trace.world).1 = .ok hash)
    : ∃ o σ'' new,
        runWrite host c args σ = (o, σ'') ∧
        Wrote c σ o σ'' new ∧
        broadcasts new = [(r.signed, .ok hash)] := by
  obtain ⟨σ'', new, hsettle, hwrote⟩ := wrote_of_accepted hprepare hanswer
  have hrun : (submitWrite host c args).run σ = (.ok hash, σ'') :=
    (submitWrite_of_accepted hprepare hanswer).trans hsettle
  refine ⟨_, σ'', new, runWrite_of_ok hrun, hwrote, ?_⟩
  obtain ⟨t, hmem⟩ := (hwrote.sent hash).mp ⟨rfl, rfl⟩
  obtain ⟨r', σ₁, hprepare', rfl, -, hone⟩ :=
    exists_prepared (by rw [runWrite_of_ok hrun]; exact hwrote.exchanges) hmem
  cases hprepare.symm.trans hprepare'
  exact hone

theorem runStep_mint (views : ViewCall → Result Bytes) (receipt : Receipt)
    (functions : List Abi.Function) {signed : SignedTransaction}
    (hsign : mintTransaction.sign? aliceKey = some signed) (t : Trace Unit)
    : ∃ o σ' new,
        runStep (mintingHost views (some .settled) (some receipt)) mintStep []
            { plan := launchPlanWith functions, trace := t }
          = conclude (mintingHost views (some .settled) (some receipt)) mintStep [o] [1] σ' ∧
        σ'.trace.exchanges = new ++ t.exchanges ∧
        broadcasts new = [(signed, .ok [1])] ∧
        receipts new = [] ∧
        (launchPlanWith functions).Like σ'.plan := by
  let host : Host Unit := mintingHost views (some .settled) (some receipt)
  let σ : Session Unit := { plan := launchPlanWith functions, trace := t }
  have hsender : signed.sender = alice.address := (eq_of_sign? hsign).2
  have hkind : σ.plan.kind? mintStep.command = some mintStep.kind := rfl
  obtain ⟨results, σ₂, hcommand, hone⟩ := @runCommand_of_kind _ host σ _ [] _ hkind
  obtain ⟨c, text, o, rfl, hc, hwrite⟩ := hone rfl
  cases hc
  obtain ⟨σ₁, hprepare⟩ :=
    @prepare_mint views (some .settled) (some receipt) functions alice aliceKey signed rfl rfl hsign
      hsender (σ.after host (.log .info text)).trace
  obtain ⟨o', σ₂', new, hwrite', hwrote, hbroadcasts⟩ :=
    @exists_accepted _ host (σ.after host (.log .info text)) _ _ _ _ [1] hprepare rfl
  cases hwrite.symm.trans hwrite'
  have hruns : Runs host Running (σ.after host (.log .info text)) σ₂ :=
    (follows_runWrite mintCommand []).runs hwrite
  have hnew : σ₂.trace.exchanges = new ++ t.exchanges := hwrote.exchanges
  have hreceipts : receipts new = [] := by
    apply receipts_eq_nil
    intro x hx hash hreceipt
    obtain ⟨_, hallowed⟩ := hruns.allowed hnew x hx
    rw [hreceipt] at hallowed
    exact hallowed
  have hsubmitted : submitted? [o] = some [1] :=
    (submitted?_singleton hwrote [1]).mpr ⟨signed, by rw [hbroadcasts]; exact List.mem_cons_self ..⟩
  obtain ⟨text', hconfirm⟩ := confirm_eq host mintStep [o] [1]
  have hstep : runStep host mintStep [] σ
      = conclude host mintStep [o] [1] (σ₂.after host (.log .info text')) := by
    rw [@runStep_of_run _ host σ _ mintStep [] [] _ rfl hcommand,
      finishStep_of_awaited rfl rfl hsubmitted, hconfirm]
    rfl
  exact ⟨o, _, new, hstep, hnew, hbroadcasts, hreceipts, hruns.like⟩

theorem visit_mint (views : ViewCall → Result Bytes) {receipt : Receipt}
    (hsuccess : receipt.success = true) (functions : List Abi.Function) {signed : SignedTransaction}
    (hsign : mintTransaction.sign? aliceKey = some signed) (observe : StepOutcome → Unit → Unit)
    (t : Trace Unit)
    : ∃ o σ' new,
        visit (mintingHost views (some .settled) (some receipt)) observe "launch" [] 0 mintStep
          { plan := launchPlanWith functions, trace := t } = ((o, none), σ') ∧
        σ'.trace.exchanges = new ++ t.exchanges ∧
        broadcasts new = [(signed, .ok [1])] ∧
        receipts new = [([1], receipt)] ∧
        (launchPlanWith functions).Like σ'.plan ∧
        ∀ a, receipt.contract = some a → σ'.address? 0 = some a := by
  let host : Host Unit := mintingHost views (some .settled) (some receipt)
  let σ : Session Unit := { plan := launchPlanWith functions, trace := t }
  obtain ⟨text, hvisit⟩ := run_visit host observe "launch" [] 0 mintStep σ
  obtain ⟨o, σ₂, new, hstep, hnew, hbroadcasts, hreceipts, hlike₂⟩ :=
    runStep_mint views receipt functions hsign (σ.after host (.log .info text)).trace
  have htimeout : 0 < (Duration.ofSeconds 600).nanos := by decide
  obtain ⟨σ₃, hawait⟩ :=
    @await_of_settled _ host [1] receipt rfl htimeout (fun _ => rfl) (fun _ => rfl) σ₂
  rw [if_pos hsuccess] at hawait
  obtain ⟨hplan, _, asked, hasked, hsettles, hquiet⟩ := settles_of_await hawait
  have hconcluded : runStep host mintStep [] (σ.after host (.log .info text))
      = (({ command := "mint", results := [o], receipt := some receipt }, none),
          (adopt mintStep receipt σ₃).2) :=
    hstep.trans (conclude_of_ok hawait)
  rw [hconcluded] at hvisit
  have hadopt : Runs host Adopting σ₃ (adopt mintStep receipt σ₃).2 :=
    follows_adopt mintStep receipt σ₃
  have hlike : (launchPlanWith functions).Like σ₃.plan := by
    rw [hplan]
    exact hlike₂
  refine ⟨_, _, asked ++ new, hvisit, ?_, ?_, ?_, hlike.trans hadopt.like, ?_⟩
  . rw [List.append_assoc]
    exact (hadopt.exchanges_eq fun _ _ h => h).trans (hasked.trans (congrArg (asked ++ ·) hnew))
  . rw [broadcasts_append, hquiet, hbroadcasts]
    rfl
  . rw [receipts_append, hsettles.receipts, hreceipts]
    rfl
  . intro a hcontract
    apply address?_adopt (c := mintCommand) _ rfl _ hcontract
    . rw [hlike.writes]
      rfl
    . rw [hlike.instance?_isSome]
      rfl

theorem runTarget_launch {functions : List Abi.Function} {host : Host Unit}
    {observe : StepOutcome → Unit → Unit} {t : Trace Unit} {o : StepOutcome} {σ' : Session Unit}
    (hvisit : visit host observe "launch" [] 0 mintStep
      { plan := launchPlanWith functions, trace := t } = ((o, none), σ'))
    : ((runTarget host observe "launch" []).run
        { plan := launchPlanWith functions, trace := t }).2 = σ' := by
  rw [@run_runTarget _ host observe [] _ σ' "launch" _ [o] none rfl
    ((runSteps_of_visit hvisit).trans (run_proceed_none rfl))]

def movedAddress : Address :=
  ⟨List.replicate 20 0xaa, rfl⟩

def movedReceipt : Receipt :=
  ⟨true, some 1, some movedAddress⟩

def mintedAddress : Address :=
  ⟨[0xf2, 0xe2, 0x46, 0xbb, 0x76, 0xdf, 0x87, 0x6c, 0xef, 0x8b,
    0x38, 0xae, 0x84, 0x13, 0x0f, 0x4f, 0x55, 0xde, 0x39, 0x5b], rfl⟩

def aliceAddress : Address :=
  ⟨[0x7e, 0x5f, 0x45, 0x52, 0x09, 0x1a, 0x69, 0x12, 0x5d, 0x5d,
    0xfc, 0xb7, 0xb8, 0xc2, 0x65, 0x90, 0x29, 0x39, 0x5b, 0xdf], rfl⟩

-- Both hashes are computed by proofs of their own, as the digest and the signature are.

theorem address_alice : alice.address = aliceAddress := by
  decide +kernel

theorem create_alice : aliceAddress.create 0 = mintedAddress := by
  decide +kernel

theorem create_mint : alice.address.create 0 = mintedAddress := by
  rw [address_alice, create_alice]

theorem launch_placed
    : ∃ (host : Host Unit) (σ σ' : Session Unit) (t : SignedTransaction),
        σ.Reachable ∧
        Executed host σ σ' ∧
        broadcasts σ'.trace.exchanges = [(t, .ok [1])] ∧
        receipts σ'.trace.exchanges = [([1], movedReceipt)] ∧
        Honest σ'.trace.exchanges ∧
        AvoidsZero σ'.trace.exchanges ∧
        σ.address? 0 = none ∧
        σ'.address? 0 = some movedAddress ∧
        Course host Placed σ σ' := by
  obtain ⟨t, hchecked⟩ := exists_launch
  let host : Host Unit := mintingHost (fun _ => .ok []) (some .settled) (some movedReceipt)
  let σ : Session Unit := { plan := launchPlan, trace := { world := () } }
  have hσ : σ.Reachable := .start hchecked _
  obtain ⟨signed, hsign⟩ := Option.isSome_iff_exists.mp isSome_sign_mint
  obtain ⟨htransaction, hsender⟩ := eq_of_sign? hsign
  obtain ⟨o, σ', new, hvisit, hnew, hbroadcasts, hreceipts, _, haddress⟩ :=
    @visit_mint (fun _ => .ok []) movedReceipt rfl launchBuild.interface.functions signed hsign
      (fun _ w => w) { world := () }
  have hexchanges : σ'.trace.exchanges = new := hnew.trans (List.append_nil new)
  have htarget : ((runTarget host (fun _ w => w) "launch" []).run σ).2 = σ' :=
    runTarget_launch hvisit
  have hexecuted : Executed host σ σ' := by
    apply Executed.target (fun _ w => w) "launch" []
    rw [htarget]
    exact .refl σ'
  -- The receipt names a contract for the creation only.
  have hhonest : Honest σ'.trace.exchanges := by
    rw [hexchanges]
    intro hash r a _ _ _ signed' hmem
    rw [hbroadcasts] at hmem
    cases List.mem_singleton.mp hmem
    rw [htransaction]
    rfl
  have havoids : AvoidsZero σ'.trace.exchanges := by
    rw [hexchanges]
    intro signed' hash hmem _
    rw [hbroadcasts] at hmem
    cases List.mem_singleton.mp hmem
    rw [htransaction, hsender]
    show (alice.address.create 0).isZero = false
    rw [create_mint]
    decide
  refine ⟨host, σ, σ', signed, hσ, hexecuted, ?_, ?_, hhonest, havoids, rfl,
    haddress _ rfl, executed_placed hσ hexecuted hhonest⟩
  . rw [hexchanges]
    exact hbroadcasts
  . rw [hexchanges]
    exact hreceipts

end Mint

end Runbook.Session
