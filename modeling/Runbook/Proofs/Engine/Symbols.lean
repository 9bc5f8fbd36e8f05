import Runbook.Proofs.Abi.Call
import Runbook.Proofs.Engine.Placed

/-!
This module contains how the symbols of tokens become known: an instance is asked for its symbol
once, as soon as its contract's creation is accepted, and never again.
-/

namespace Runbook

theorem Catalogue.mem_symbols {c : Catalogue} {id : Nat} {symbol : String}
    (h : (c.instance? id).bind Instance.symbol = some symbol) : Text.lower symbol ∈ c.symbols := by
  obtain ⟨i, hi, hsymbol⟩ := Option.bind_eq_some_iff.mp h
  apply List.mem_map_of_mem
  rw [List.mem_filterMap]
  exact ⟨i, List.mem_of_getElem? hi, hsymbol⟩

namespace Session

variable {ω : Type} {host : Host ω} {Allowed : Session ω → Event → Prop}
variable {σ σ' : Session ω} {id : Nat}

def symbol? (σ : Session ω) (id : Nat) : Option String :=
  (σ.plan.catalogue.instance? id).bind Instance.symbol

def Sparing (id : Nat) (_ : Session ω) : Event → Prop
  | .symbol id' _ => id' ≠ id
  | _ => True

theorem symbol?_symbol (host : Host ω) (σ : Session ω) (id : Nat) (symbol : Option String)
    (id' : Nat)
    : (σ.after host (.symbol id symbol)).symbol? id'
        =
      if id = id' then (σ.plan.catalogue.instance? id').bind fun _ => symbol
      else σ.symbol? id' := by
  show ((σ.plan.catalogue.modify id _).instance? id').bind Instance.symbol = _
  rw [Catalogue.instance?_modify]
  unfold symbol?
  cases σ.plan.catalogue.instance? id' with
  | none => simp
  | some i => split <;> rfl

theorem after_symbol? {e : Event} (he : Sparing id σ e)
    : (σ.after host e).symbol? id = σ.symbol? id := by
  cases e with
  | symbol id' symbol =>
    rw [symbol?_symbol, if_neg he]
  | address id' a =>
    show ((σ.plan.catalogue.modify id' _).instance? id).bind Instance.symbol = _
    rw [Catalogue.instance?_modify]
    unfold symbol?
    cases σ.plan.catalogue.instance? id with
    | none => rfl
    | some i =>
      simp only [Option.map_some, Option.bind_some]
      split <;> rfl
  | _ => rfl

theorem Runs.symbol? (h : Runs host (Sparing id) σ σ') : σ'.symbol? id = σ.symbol? id := by
  induction h with
  | nil => rfl
  | cons e he _ ih => rw [ih, after_symbol? he]

theorem Runs.probed (h : Runs host Allowed σ σ') (hprobed : id ∈ σ.probed) : id ∈ σ'.probed := by
  induction h with
  | nil => exact hprobed
  | cons e _ _ ih =>
    apply ih
    cases e with
    | probe id' => exact List.mem_cons_of_mem _ hprobed
    | _ => exact hprobed

theorem sparing_of_querying (σ : Session ω) (e : Event) (h : Querying σ e) : Sparing id σ e := by
  unfold Querying at h
  split at h
  all_goals trivial

theorem sparing_of_arranging (σ : Session ω) (e : Event) (h : Arranging σ e) : Sparing id σ e := by
  unfold Arranging at h
  split at h
  all_goals trivial

theorem sparing_of_waiting {hash : Hash} (σ : Session ω) (e : Event) (h : Waiting hash σ e)
    : Sparing id σ e := by
  unfold Waiting at h
  split at h
  all_goals trivial

theorem sparing_of_adopting (σ : Session ω) (e : Event) (h : Adopting σ e) : Sparing id σ e := by
  unfold Adopting at h
  split at h
  all_goals trivial

theorem sparing_fetchSymbol {id' : Nat} (h : id' ≠ id) (σ : Session ω)
    : Runs host (Sparing id) σ (fetchSymbol host id' σ).2 :=
  runs_fetchSymbol (fun _ _ _ => trivial) (fun _ _ _ => trivial) (fun _ _ => h)

theorem sparing_discoverSymbols
    (h : id ∈ σ.probed ∨ σ.plan.isDeployed id = false)
    : Runs host (Sparing id) σ (discoverSymbols host σ).2 := by
  refine (@runs_discover _ _ _ _
    (fun σ => id ∈ σ.probed ∨ σ.plan.isDeployed id = false) ?_ _ h).1
  intro σ₁ id' hσ₁ hunprobed
  obtain ⟨hprobed, hdeployed⟩ := Bool.and_eq_true_iff.mp hunprobed
  have hne : id' ≠ id := by
    rintro rfl
    rcases hσ₁ with hmem | hundeployed
    . simp [hmem] at hprobed
    . exact Bool.false_ne_true (hundeployed.symm.trans hdeployed)
  have hfetch : Runs host (Sparing id) σ₁ (fetchSymbol host id' (σ₁.after host (.probe id'))).2 :=
    .cons (.probe id') trivial (sparing_fetchSymbol hne _)
  refine ⟨hfetch, ?_⟩
  rcases hσ₁ with hmem | hundeployed
  . exact .inl (hfetch.probed hmem)
  . rw [isDeployed_eq] at hundeployed ⊢
    rw [Runs.address? (Runs.cons (.probe id') trivial (follows_fetchSymbol id' _))
      (fun _ _ _ h => h)]
    exact .inr hundeployed

theorem sparing_prepare (c : WriteCommand) (args : List String)
    (h : id ∈ σ.probed ∨ σ.plan.isDeployed id = false)
    : Runs host (Sparing id) σ ((prepare host c args).run σ).2 :=
  (sparing_discoverSymbols h).trans ((runs_prepare host c args σ).mono sparing_of_arranging)

theorem sparing_runWrite (c : WriteCommand) (args : List String) (hprobed : id ∈ σ.probed)
    (hdeployed : σ.plan.isDeployed id = true)
    : Runs host (Sparing id) σ (runWrite host c args σ).2 := by
  apply runs_runWrite
  . exact sparing_prepare c args (.inl hprobed)
  . exact fun _ _ _ => trivial
  . intro r σ₁ hash hprepare _
    have hdeploys := prepare_deploys hprepare
    obtain ⟨text, hsettle⟩ := run_settle host c r hash (σ₁.after host (.ask (.send r.signed)))
    rw [hsettle]
    apply Runs.cons (.log .info text) trivial
    cases hintent : r.intent with
    | deploy id' value =>
      rw [hintent] at hdeploys
      have hne : id' ≠ id := by
        rintro rfl
        exact Bool.false_ne_true (hdeploys.2.2.1.symm.trans hdeployed)
      obtain ⟨text', hdeployed'⟩ := run_deployed host id' (r.sender.create r.nonce)
        ((σ₁.after host (.ask (.send r.signed))).after host (.log .info text))
      dsimp only
      rw [hdeployed']
      apply Runs.cons (.log .info text') trivial
      apply Runs.cons (.address id' _) trivial
      exact .cons (.probe id') trivial (sparing_fetchSymbol hne _)
    | _ => exact .nil _

theorem sparing_runCommand (name : String) (args : List String) (hprobed : id ∈ σ.probed)
    (hdeployed : σ.plan.isDeployed id = true)
    : Runs host (Sparing id) σ ((runCommand host name args).run σ).2 :=
  runs_runCommand (fun _ _ _ => trivial)
    (fun _ _ _ => follows_runCall (fun _ _ _ => trivial) _ _ _)
    (fun _ _ _ => (follows_runRead _ _).mono sparing_of_querying _)
    (fun c _ _ => sparing_runWrite c args hprobed hdeployed)

theorem sparing_finishStep (s : Step) (results : List Outcome)
    : Follows host (Sparing id) (finishStep host s results) :=
  follows_finishStep (fun _ => sparing_of_waiting) sparing_of_adopting s results

theorem sparing_runStep (s : Step) (args : List String) (hprobed : id ∈ σ.probed)
    (hdeployed : σ.plan.isDeployed id = true)
    : Runs host (Sparing id) σ (runStep host s args σ).2 := by
  cases hargs : s.argsFor args with
  | error e =>
    obtain ⟨fault, hstep⟩ := @runStep_of_unresolved _ host σ _ _ _ hargs
    rw [hstep]
    exact .nil σ
  | ok stepArgs =>
    have hruns : Runs host (Sparing id) σ ((runCommand host s.command stepArgs).run σ).2 :=
      sparing_runCommand s.command stepArgs hprobed hdeployed
    cases hrun : (runCommand host s.command stepArgs).run σ with
    | mk result σ₁ =>
      rw [hrun] at hruns
      cases result with
      | error e =>
        unfold runStep
        dsimp only
        rw [hargs]
        simp only [bind, StateT.bind, Action.outcome, hrun]
        exact hruns
      | ok results =>
        rw [runStep_of_run hargs hrun]
        exact hruns.trans (sparing_finishStep s results σ₁)

/--
The second session comes from the first one by steps of targets that run while the instance is
deployed, and by lines of the log.
-/
inductive Later (host : Host ω) (id : Nat) : Session ω → Session ω → Prop where
  | refl (σ : Session ω) : Later host id σ σ
  | log {σ σ' : Session ω} (level : Level) (text : String)
      (h : Later host id (σ.after host (.log level text)) σ') : Later host id σ σ'
  | visit {σ σ' : Session ω} (observe : StepOutcome → ω → ω) (target : String) (args : List String)
      (position : Nat) (s : Step) (hdeployed : σ.plan.isDeployed id = true)
      (h : Later host id (visit host observe target args position s σ).2 σ') : Later host id σ σ'

theorem Later.spares (h : Later host id σ σ') (hprobed : id ∈ σ.probed)
    : id ∈ σ'.probed ∧ σ'.symbol? id = σ.symbol? id := by
  induction h with
  | refl => exact ⟨hprobed, rfl⟩
  | log _ _ _ ih => exact ih hprobed
  | @visit σ _ observe target args position s hdeployed _ ih =>
    obtain ⟨text, hvisit⟩ := run_visit host observe target args position s σ
    rw [hvisit] at ih
    have hruns : Runs host (Sparing id) (σ.after host (.log .info text)) _ :=
      sparing_runStep s args hprobed hdeployed
    obtain ⟨hprobed', hsymbol⟩ := ih (hruns.probed hprobed)
    exact ⟨hprobed', hsymbol.trans hruns.symbol?⟩

/--
The value of the write is parsed in the plan `p`, with its token symbols.
-/
def Parses (host : Host ω) (c : WriteCommand) (σ : Session ω) (p : Plan) : Prop :=
  ∃ sender price σ₁,
    (gather host c).run (discoverSymbols host σ).2 = (.ok (sender, price), σ₁) ∧ σ₁.plan = p

theorem exists_parses_of_isOk {c : WriteCommand} {args : List String}
    (h : (runWrite host c args σ).1.isOk = true)
    : ∃ p amount, Parses host c σ p ∧ amountOf c args p = .ok amount := by
  rcases submitWrite_cases host c args σ with ⟨e, σ₁, _, hrun⟩ |
    ⟨r, σ₁, hprepare, _⟩
  . rw [runWrite_of_error hrun] at h
    cases h
  . rw [prepare_eq, Action.run_bind_ok (Action.run_perform _ σ)] at hprepare
    obtain ⟨⟨sender, price⟩, σ₂, hgather, hprepare⟩ := Action.exists_of_run_bind hprepare
    obtain ⟨amount, σ₃, hreads, _⟩ := Action.exists_of_run_bind hprepare
    exact ⟨σ₂.plan, amount, ⟨sender, price, σ₂, hgather, rfl⟩, (of_run_reads hreads).1⟩

theorem Parses.spares {c : WriteCommand} {p : Plan} (h : Parses host c σ p)
    (hprobed : id ∈ σ.probed)
    : (p.catalogue.instance? id).bind Instance.symbol = σ.symbol? id := by
  obtain ⟨sender, price, σ₁, hgather, rfl⟩ := h
  have hruns : Runs host (Sparing id) σ σ₁ :=
    (sparing_discoverSymbols (.inl hprobed)).trans
      (((follows_gather c).runs hgather).mono sparing_of_arranging)
  exact hruns.symbol?

theorem Later.like (h : Later host id σ σ') : σ.plan.Like σ'.plan := by
  induction h with
  | refl => exact .refl _
  | @log σ _ level text _ ih => exact (after_like host σ (.log level text)).trans ih
  | visit _ _ _ _ _ _ _ ih => exact (like_visit ..).trans ih

theorem Parses.like {c : WriteCommand} {p : Plan} (h : Parses host c σ p) : σ.plan.Like p := by
  obtain ⟨sender, price, σ₁, hgather, rfl⟩ := h
  exact (@follows_discoverSymbols _ host σ).like.trans ((follows_gather c).runs hgather).like

theorem exists_instance_of_told {symbol : String} (h : told host id σ = some symbol)
    : ∃ i, σ.plan.catalogue.instance? id = some i := by
  unfold told at h
  split at h
  . next htells =>
    unfold Catalogue.tellsSymbol at htells
    split at htells
    . next hbuild =>
      obtain ⟨i, hi, _⟩ := Catalogue.buildOf_eq_ok.mp hbuild
      exact ⟨i, hi⟩
    . cases htells
  . cases h

theorem symbol?_fetchSymbol (host : Host ω) (id : Nat) (σ : Session ω)
    : (fetchSymbol host id σ).2.symbol? id
        =
      match told host id σ with
      | some symbol => some (Text.upper symbol)
      | none => σ.symbol? id := by
  obtain ⟨σ₁, hruns, hfetch⟩ := @fetchSymbol_spec _ host (Sparing id) σ id (fun _ _ _ => trivial)
    (fun _ _ _ => trivial)
  rw [hfetch]
  cases htold : told host id σ with
  | some symbol =>
    obtain ⟨i, hi⟩ := exists_instance_of_told htold
    obtain ⟨i', hi', _⟩ := hruns.like.exists_instance hi
    dsimp only
    rw [symbol?_symbol, if_pos rfl, hi']
    rfl
  | none => exact hruns.symbol?

/--
What an accepted creation leaves before the fresh instance is asked for its symbol.
-/
def created (host : Host ω) (id : Nat) (t : SignedTransaction) (line line' : String)
    (σ : Session ω) : Session ω :=
  let accepted := (σ.after host (.ask (.send t))).after host (.log .info line)
  let noted := accepted.after host (.log .info line')
  (noted.after host (.address id (t.sender.create t.transaction.nonce))).after host (.probe id)

/--
A write that began in `σ` has had `t` accepted, the creation of its instance's contract. In `σ'` it
asks the instance for its symbol.
-/
structure Fresh (host : Host ω) (c : WriteCommand) (args : List String) (id : Nat)
    (t : SignedTransaction) (hash : Hash) (σ σ' : Session ω) : Prop where
  target : c.target = some id
  creation : t.transaction.recipient = none
  made : ∃ r σ₁ line line', (prepare host c args).run σ = (.ok r, σ₁) ∧ r.signed = t ∧
    (host.node.ask (.send t) σ₁.trace.world).1 = .ok hash ∧
    σ' = created host id t line line' σ₁

section Fresh

variable {c : WriteCommand} {args : List String} {t : SignedTransaction} {hash : Hash}

theorem Fresh.undeployed (h : Fresh host c args id t hash σ σ')
    : σ.plan.isDeployed id = false := by
  obtain ⟨r, σ₁, _, _, hprepare, hsigned, _, _⟩ := h.made
  obtain ⟨id', _, _, htarget, hundeployed, _⟩ :=
    deploys_of_prepare hprepare (by rw [hsigned]; exact h.creation)
  cases h.target.symm.trans htarget
  exact hundeployed

theorem Fresh.address (h : Fresh host c args id t hash σ σ')
    : σ'.address? id = some (t.sender.create t.transaction.nonce) := by
  obtain ⟨r, σ₁, line, line', hprepare, hsigned, _, rfl⟩ := h.made
  obtain ⟨id', _, _, htarget, _, hinstance⟩ :=
    deploys_of_prepare hprepare (by rw [hsigned]; exact h.creation)
  cases h.target.symm.trans htarget
  unfold created
  rw [after_address? (by intros; simp), address?_address, if_pos rfl]
  obtain ⟨i, hi⟩ := Option.isSome_iff_exists.mp hinstance
  show (σ₁.plan.catalogue.instance? id).map _ = _
  rw [hi]
  rfl

theorem Fresh.probed (h : Fresh host c args id t hash σ σ') : id ∈ σ'.probed := by
  obtain ⟨_, _, _, _, _, _, _, rfl⟩ := h.made
  exact List.mem_cons_self ..

theorem Fresh.spares (h : Fresh host c args id t hash σ σ') : Runs host (Sparing id) σ σ' := by
  have hruns : Runs host (Sparing id) σ ((prepare host c args).run σ).2 :=
    sparing_prepare c args (.inr h.undeployed)
  obtain ⟨r, σ₁, line, line', hprepare, _, _, rfl⟩ := h.made
  rw [hprepare] at hruns
  apply hruns.trans
  apply Runs.cons (.ask (.send t)) trivial
  apply Runs.cons (.log .info line) trivial
  apply Runs.cons (.log .info line') trivial
  exact .cons (.address id (t.sender.create t.transaction.nonce)) trivial
    (.single (.probe id) trivial)

theorem runWrite_created {new : List Exchange}
    (hnew : (runWrite host c args σ).2.trace.exchanges = new ++ σ.trace.exchanges)
    (hmem : (t, .ok hash) ∈ broadcasts new) (htarget : c.target = some id)
    (hnone : t.transaction.recipient = none)
    : ∃ σ₁ : Session ω,
        Fresh host c args id t hash σ σ₁ ∧
        (runWrite host c args σ).2 = (fetchSymbol host id σ₁).2 := by
  obtain ⟨r, σ₁, hprepare, rfl, hanswer, -⟩ := exists_prepared hnew hmem
  obtain ⟨id', value, hintent, htarget', _, _⟩ := deploys_of_prepare hprepare hnone
  cases htarget.symm.trans htarget'
  obtain ⟨line, hsettle⟩ := run_settle host c r hash (σ₁.after host (.ask (.send r.signed)))
  obtain ⟨line', hdeployed⟩ := run_deployed host id (r.sender.create r.nonce)
    ((σ₁.after host (.ask (.send r.signed))).after host (.log .info line))
  have hrun := (submitWrite_of_accepted hprepare hanswer).trans hsettle
  refine ⟨created host id r.signed line line' σ₁,
    ⟨htarget, hnone, r, σ₁, line, line', hprepare, rfl, hanswer, rfl⟩, ?_⟩
  rw [runWrite_of_ok hrun, hintent]
  dsimp only
  rw [hdeployed]
  unfold created
  rw [prepare_signer hprepare, (prepare_sender hprepare).2]

end Fresh

theorem broadcasts_of_finishStep {s : Step} {results : List Outcome} {new : List Exchange}
    (hnew : (finishStep host s results σ).2.trace.exchanges = new ++ σ.trace.exchanges)
    : broadcasts new = [] := by
  have hquiet : Runs host (fun _ e => ∀ t, e ≠ .ask (.send t)) σ (finishStep host s results σ).2 :=
    follows_finishStep (fun _ _ _ h t ht => by rw [ht] at h; exact h)
      (fun _ _ h t ht => by rw [ht] at h; exact h) s results σ
  apply broadcasts_eq_nil
  intro x hx t ht
  obtain ⟨_, hallowed⟩ := hquiet.allowed hnew x hx
  exact hallowed t (by rw [ht])

section Visit

variable {s : Step} {c : WriteCommand} {args : List String} {new : List Exchange}
variable {t : SignedTransaction} {hash : Hash}

theorem runStep_created (hstep : s.kind = .write) (hkind : σ.plan.kind? s.command = some s.kind)
    (hc : σ.plan.writes.find? s.command = some c) (htarget : c.target = some id)
    (hnew : (runStep host s args σ).2.trace.exchanges = new ++ σ.trace.exchanges)
    (hmem : (t, .ok hash) ∈ broadcasts new) (hnone : t.transaction.recipient = none)
    : ∃ stepArgs line σ₁,
        s.argsFor args = .ok stepArgs ∧
        Fresh host c stepArgs id t hash (σ.after host (.log .info line)) σ₁ ∧
        Runs host (Sparing id) (fetchSymbol host id σ₁).2 (runStep host s args σ).2 := by
  cases hargs : s.argsFor args with
  | error e =>
    -- Such a step sends nothing.
    obtain ⟨_, hstopped⟩ := @runStep_of_unresolved _ host σ _ _ _ hargs
    rw [hstopped] at hnew
    rw [List.self_eq_append_left.mp hnew] at hmem
    cases hmem
  | ok stepArgs =>
    obtain ⟨results, σ₂, hcommand, hone⟩ := @runCommand_of_kind _ host _ _ stepArgs _ hkind
    obtain ⟨c', line, o, rfl, hc', hwrite⟩ := hone hstep
    cases hc.symm.trans hc'
    obtain ⟨new₁, hwrote⟩ := wrote_of_run hwrite
    rw [runStep_of_run hargs hcommand] at hnew ⊢
    have hfinish : Runs host (Sparing id) σ₂ (finishStep host s [o] σ₂).2 :=
      sparing_finishStep s [o] σ₂
    obtain ⟨new₂, hnew₂, _⟩ := hfinish.exchanges
    have hall : new ++ σ.trace.exchanges = (new₂ ++ new₁) ++ σ.trace.exchanges := by
      rw [← hnew, List.append_assoc]
      exact hnew₂.trans (congrArg (new₂ ++ ·) hwrote.exchanges)
    have hsplit : new = new₂ ++ new₁ := List.append_cancel_right hall
    rw [hsplit, broadcasts_append, broadcasts_of_finishStep hnew₂, List.nil_append] at hmem
    obtain ⟨σ₁, hfresh, hfetch⟩ :=
      runWrite_created (by rw [hwrite]; exact hwrote.exchanges) hmem htarget hnone
    rw [hwrite] at hfetch
    dsimp only at hfetch
    refine ⟨stepArgs, line, σ₁, rfl, hfresh, ?_⟩
    rw [← hfetch]
    exact hfinish

variable {observe : StepOutcome → ω → ω} {target : String} {position : Nat} {o : StepOutcome}
variable {fault : Option Fault}

def Fresh.InStep (host : Host ω) (s : Step) (c : WriteCommand) (args : List String) (id : Nat)
    (t : SignedTransaction) (hash : Hash) (σ σ' : Session ω) : Prop :=
  ∃ stepArgs line line', s.argsFor args = .ok stepArgs ∧
    Fresh host c stepArgs id t hash
      ((σ.after host (.log .info line)).after host (.log .info line')) σ'

theorem Fresh.InStep.address (h : Fresh.InStep host s c args id t hash σ σ')
    : σ'.address? id = some (t.sender.create t.transaction.nonce) := by
  obtain ⟨_, _, _, _, hfresh⟩ := h
  exact hfresh.address

theorem Fresh.InStep.spares (h : Fresh.InStep host s c args id t hash σ σ')
    : Runs host (Sparing id) σ σ' := by
  obtain ⟨_, line, line', _, hfresh⟩ := h
  exact .cons (.log .info line) trivial (.cons (.log .info line') trivial hfresh.spares)

theorem symbol?_visit (hstep : s.kind = .write) (hkind : σ.plan.kind? s.command = some s.kind)
    (hc : σ.plan.writes.find? s.command = some c) (htarget : c.target = some id)
    (hvisit : visit host observe target args position s σ = ((o, fault), σ'))
    (hnew : σ'.trace.exchanges = new ++ σ.trace.exchanges)
    (hmem : (t, .ok hash) ∈ broadcasts new) (hnone : t.transaction.recipient = none)
    : ∃ σ₁ : Session ω,
        Fresh.InStep host s c args id t hash σ σ₁ ∧
        id ∈ σ'.probed ∧
        σ'.symbol? id
          =
        match told host id σ₁ with
        | some symbol => some (Text.upper symbol)
        | none => σ.symbol? id := by
  obtain ⟨line, hrun⟩ := run_visit host observe target args position s σ
  rw [hrun] at hvisit
  obtain ⟨-, rfl⟩ := Prod.mk.inj hvisit
  obtain ⟨stepArgs, line', σ₁, hargs, hfresh, hruns⟩ :=
    @runStep_created _ host (σ.after host (.log .info line)) _ _ _ _ _ _ _ hstep hkind hc htarget
      hnew hmem hnone
  have hprobed : id ∈ (fetchSymbol host id σ₁).2.probed :=
    (@follows_fetchSymbol _ host id σ₁).probed hfresh.probed
  have hstepped : Fresh.InStep host s c args id t hash σ σ₁ := ⟨stepArgs, line, line', hargs, hfresh⟩
  refine ⟨σ₁, hstepped, hruns.probed hprobed, ?_⟩
  refine hruns.symbol?.trans ?_
  rw [symbol?_fetchSymbol, hstepped.spares.symbol?]

/--
An instance that a target's step deploys is asked for its symbol as soon as the creation is
accepted, at the address that follows from the nonce. If it tells one then, all later writes have
it among the symbols that their values are parsed with, in small letters behind capital ones. If it
tells none, it gets none, whatever it would tell once the step is confirmed.
-/
theorem parses_deployed (hstep : s.kind = .write) (hkind : σ.plan.kind? s.command = some s.kind)
    (hc : σ.plan.writes.find? s.command = some c) (htarget : c.target = some id)
    (hvisit : visit host observe target args position s σ = ((o, fault), σ'))
    (hnew : σ'.trace.exchanges = new ++ σ.trace.exchanges)
    (hmem : (t, .ok hash) ∈ broadcasts new) (hnone : t.transaction.recipient = none)
    : ∃ σ₁ : Session ω,
        Fresh.InStep host s c args id t hash σ σ₁ ∧
        σ₁.address? id = some (t.sender.create t.transaction.nonce) ∧
        (∀ symbol, told host id σ₁ = some symbol →
          ∀ σ₂ c' p, Later host id σ' σ₂ → Parses host c' σ₂ p →
            (p.catalogue.instance? id).bind Instance.symbol = some (Text.upper symbol) ∧
            Text.lower (Text.upper symbol) ∈ p.catalogue.symbols) ∧
        (told host id σ₁ = none →
          ∀ σ₂ c' p, Later host id σ' σ₂ → Parses host c' σ₂ p →
            (p.catalogue.instance? id).bind Instance.symbol = σ.symbol? id) := by
  obtain ⟨σ₁, hfresh, hprobed, hsymbol⟩ :=
    symbol?_visit hstep hkind hc htarget hvisit hnew hmem hnone
  have hknown {σ₂ : Session ω} {c' : WriteCommand} {p : Plan} (hlater : Later host id σ' σ₂)
      (hparses : Parses host c' σ₂ p)
      : (p.catalogue.instance? id).bind Instance.symbol = σ'.symbol? id := by
    obtain ⟨hprobed₂, hsymbol₂⟩ := hlater.spares hprobed
    exact (hparses.spares hprobed₂).trans hsymbol₂
  refine ⟨σ₁, hfresh, hfresh.address, ?_, ?_⟩
  . intro symbol htold σ₂ c' p hlater hparses
    rw [htold] at hsymbol
    have htells := (hknown hlater hparses).trans hsymbol
    exact ⟨htells, Catalogue.mem_symbols htells⟩
  . intro htold σ₂ c' p hlater hparses
    rw [htold] at hsymbol
    exact (hknown hlater hparses).trans hsymbol

end Visit

theorem told_of_viewCall {call : ViewCall} {f : Abi.Function}
    (htells : σ.plan.catalogue.tellsSymbol id = true)
    (hcall : σ.plan.viewCall id "symbol" none [] = .ok (call, f))
    : told host id σ
        =
      match (host.node.ask (.view call) σ.trace.world).1 >>= f.decodeOutputs with
      | .ok (.string symbol) => if symbol.isEmpty then none else some symbol
      | _ => none := by
  unfold told
  rw [if_pos htells, run_view, hcall]
  rfl

theorem told_eq_none {a : Address} (ha : σ.address? id = some a)
    (hnone : ∀ call w, call.recipient = a → ∃ e, (host.node.ask (.view call) w).1 = .error e)
    : told host id σ = none := by
  cases htells : σ.plan.catalogue.tellsSymbol id with
  | false =>
    unfold told
    rw [if_neg (by simp [htells])]
  | true =>
    cases hcall : σ.plan.viewCall id "symbol" none [] with
    | error e =>
      unfold told
      rw [if_pos htells, run_view, hcall]
    | ok result =>
      obtain ⟨call, f⟩ := result
      have hrecipient := (address?_of_viewCall hcall).symm.trans ha
      obtain ⟨e, hanswer⟩ := hnone call σ.trace.world (Option.some.inj hrecipient)
      rw [told_of_viewCall htells hcall, hanswer]
      rfl

def symbolFunction : Abi.Function where
  name := "symbol"
  inputs := []
  outputs := [{ name := "", type := "string", components := [] }]

theorem decodeOutputs_symbol {symbol : String}
    (hsize : (Abi.AbiValue.standard [.string symbol]).length < 2 ^ 64)
    : symbolFunction.decodeOutputs (Abi.AbiValue.standard [.string symbol])
        = .ok (.string symbol) := by
  have hresolve : Abi.Parameter.resolveAll? symbolFunction.outputs = some [.string] := by
    rw [symbolFunction, Abi.Parameter.resolveAll?,
      Abi.Parameter.resolve?_of_elementary? (by decide) rfl, Abi.Parameter.resolveAll?]
    rfl
  have hdecode : Abi.decode? [.string] (Abi.AbiValue.standard [.string symbol])
      = some [.string symbol] :=
    Abi.AbiValue.decode?_standard (.cons ⟨trivial, trivial, trivial⟩ .nil) hsize
  unfold Abi.Function.decodeOutputs
  rw [hresolve, Option.bind_some, hdecode]
  rfl

theorem told_eq_some {a : Address} {build : Build} {symbol : String}
    (hbuild : σ.plan.catalogue.buildOf id = .ok build)
    (htells : (build.interface.functionsNamed "symbol").any (·.inputs.isEmpty) = true)
    (hfind : build.interface.find "symbol" 0 = .ok symbolFunction) (ha : σ.address? id = some a)
    (hsymbol : symbol.isEmpty = false)
    (hsize : (Abi.AbiValue.standard [.string symbol]).length < 2 ^ 64)
    (hanswer : ∀ call w, call.recipient = a →
      (host.node.ask (.view call) w).1 = .ok (Abi.AbiValue.standard [.string symbol]))
    : told host id σ = some symbol := by
  have htells' : σ.plan.catalogue.tellsSymbol id = true := by
    unfold Catalogue.tellsSymbol
    rw [hbuild]
    exact htells
  obtain ⟨data, hdata⟩ : ∃ data, symbolFunction.callData [] = .ok data := ⟨_, rfl⟩
  have hcall : σ.plan.viewCall id "symbol" none [] = .ok (⟨none, a, data⟩, symbolFunction) := by
    unfold Plan.viewCall
    unfold address? at ha
    simp only [hbuild, bind, Except.bind, ha, List.length_nil, hfind, hdata]
    rfl
  have hdecoded : (host.node.ask (.view ⟨none, a, data⟩) σ.trace.world).1 >>=
      symbolFunction.decodeOutputs = .ok (.string symbol) := by
    rw [hanswer ⟨none, a, data⟩ σ.trace.world rfl]
    exact decodeOutputs_symbol hsize
  rw [told_of_viewCall htells' hcall, hdecoded]
  dsimp only
  rw [if_neg (by simp [hsymbol])]

section Tether

def tetherViews (call : ViewCall) : Result Bytes :=
  if call.recipient = movedAddress then .ok (Abi.AbiValue.standard [.string "USDT"])
  else fail .network "no contract"

def tokenPlan : Plan :=
  launchPlanWith (launchBuild.interface.functions ++ [symbolFunction])

theorem told_tether {σ : Session Unit} {status : Option Status} {receipt : Option Receipt}
    (hlike : tokenPlan.Like σ.plan) (ha : σ.address? 0 = some movedAddress)
    : told (mintingHost tetherViews status receipt) 0 σ = some "USDT" := by
  apply told_eq_some (hlike.buildOf rfl) rfl rfl ha (by decide) (by decide +kernel)
  intro call w hcall
  show tetherViews call = _
  exact if_pos hcall

theorem exists_instance_of_token {p : Plan} (hlike : tokenPlan.Like p)
    : ∃ i, p.catalogue.instances = [i] := by
  have hnames : p.catalogue.instances.map Instance.name = [some "token"] := hlike.names
  obtain ⟨i, hi, _⟩ := List.map_eq_singleton_iff.mp hnames
  exact ⟨i, hi⟩

theorem symbols_of_token {p : Plan} (hlike : tokenPlan.Like p)
    : p.catalogue.symbols
        = (((p.catalogue.instance? 0).bind Instance.symbol).map Text.lower).toList := by
  obtain ⟨i, hi⟩ := exists_instance_of_token hlike
  unfold Catalogue.symbols Catalogue.instance?
  rw [hi]
  show (List.filterMap Instance.symbol [i]).map Text.lower = (i.symbol.map Text.lower).toList
  cases hsymbol : i.symbol <;> simp [hsymbol]

theorem parse_tether (args : List String) (wallets : Directory) (a : Amount)
    : Amount.parse [] args wallets "5 usdt" ≠ .ok a := by
  rw [Ne, Amount.parse_eq_ok, Amount.fill_of_not_mem (by decide) (by decide)]
  rintro ⟨_, ⟨⟩, htext⟩
  obtain ⟨rest, n, hsplits, harith, _⟩ := Amount.ofText_eq_ok.mp htext
  have hlowered : (Text.lower (Text.trim "5 usdt")).toList = "5 usdt".toList := by decide
  rw [hlowered, List.append_nil] at hsplits
  cases hunit : a.denomination with
  | none =>
    have hrest := hsplits.text_eq
    rw [hunit] at hrest
    rw [← (hrest.trans (List.append_nil rest))] at harith
    revert harith
    decide
  | some name =>
    have hends : name.toList <:+ "5 usdt".toList := by
      refine ⟨rest, ?_⟩
      rw [hsplits.text_eq, hunit]
      rfl
    have hnone : ∀ name ∈ commonDenominations, ¬ name.toList <:+ "5 usdt".toList := by decide
    exact hnone name (hsplits.fits name hunit).1 hends

theorem tether_unparsed
    : ∃ (host : Host Unit) (σ σ' : Session Unit) (o : StepOutcome) (new : List Exchange)
        (t : SignedTransaction),
        σ.Reachable ∧
        σ.plan.writes.find? "mint" = some mintCommand ∧
        mintCommand.target = some 0 ∧
        visit host (fun _ w => w) "launch" [] 0 mintStep σ = ((o, none), σ') ∧
        σ'.trace.exchanges = new ++ σ.trace.exchanges ∧
        broadcasts new = [(t, .ok [1])] ∧
        t.transaction.recipient = none ∧
        told host 0 σ' = some "USDT" ∧
        ∀ σ₂ c args, Later host 0 σ' σ₂ →
          (∀ p, Parses host c σ₂ p → p.catalogue.symbols = []) ∧
          (c.value = some "5 usdt" → (runWrite host c args σ₂).1.isOk = false) := by
  obtain ⟨trace, hchecked⟩ :=
    @exists_launchWith (launchBuild.interface.functions ++ [symbolFunction]) rfl
  obtain ⟨signed, hsign⟩ := Option.isSome_iff_exists.mp isSome_sign_mint
  obtain ⟨htransaction, hsender⟩ := eq_of_sign? hsign
  let host : Host Unit := mintingHost tetherViews (some .settled) (some movedReceipt)
  let σ : Session Unit := { plan := tokenPlan, trace }
  obtain ⟨o, σ', new, hvisit, hnew, hbroadcasts, _, hlike, haddress⟩ :=
    @visit_mint tetherViews movedReceipt rfl (launchBuild.interface.functions ++ [symbolFunction])
      signed hsign (fun _ w => w) trace
  have hrecipient : signed.transaction.recipient = none := by
    rw [htransaction]
    rfl
  obtain ⟨σ₁, _, haddress₁, _, hlater⟩ :=
    @parses_deployed _ host σ σ' 0 mintStep mintCommand [] new signed [1] (fun _ w => w) "launch" 0
      o none rfl rfl rfl rfl hvisit hnew (by rw [hbroadcasts]; exact List.mem_cons_self ..)
      hrecipient
  have htold : told host 0 σ₁ = none := by
    apply told_eq_none haddress₁
    intro call w hcall
    refine ⟨_, if_neg ?_⟩
    rw [hcall, htransaction, hsender]
    show alice.address.create 0 ≠ movedAddress
    rw [create_mint]
    decide
  have hunparsed : ∀ σ₂ c p, Later host 0 σ' σ₂ → Parses host c σ₂ p →
      p.catalogue.symbols = [] := by
    intro σ₂ c p h hparses
    have hunknown : (p.catalogue.instance? 0).bind Instance.symbol = none :=
      hlater htold σ₂ c p h hparses
    rw [symbols_of_token (hlike.trans (h.like.trans hparses.like)), hunknown]
    rfl
  refine ⟨host, σ, σ', o, new, signed, .start hchecked trace, rfl, rfl, hvisit, hnew, hbroadcasts,
    hrecipient, told_tether hlike (haddress _ rfl), ?_⟩
  intro σ₂ c args h
  refine ⟨fun p => hunparsed σ₂ c p h, ?_⟩
  intro hvalue
  rw [Bool.eq_false_iff]
  intro hok
  obtain ⟨p, amount, hparses, hamount⟩ := exists_parses_of_isOk hok
  unfold amountOf at hamount
  rw [hvalue, hunparsed σ₂ c p h hparses] at hamount
  obtain ⟨a, hparse, _⟩ := map_eq_ok.mp hamount
  exact parse_tether args _ a hparse

end Tether

end Session

end Runbook
