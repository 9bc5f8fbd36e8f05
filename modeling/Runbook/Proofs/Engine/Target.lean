import Runbook.Proofs.Engine.Sound
import Runbook.Proofs.Engine.Step
import Runbook.Proofs.Param.Token

/-!
This module contains the running of targets: which steps of a target run, and where it stops.
-/

namespace Runbook.Session

variable {ω : Type} {host : Host ω} {observe : StepOutcome → ω → ω} {target : String}
variable {args : List String} {σ σ' : Session ω}

theorem follows_confirm {Allowed : Session ω → Event → Prop} {hash : Hash}
    (hwaiting : ∀ σ e, Waiting hash σ e → Allowed σ e)
    (hadopting : ∀ σ e, Adopting σ e → Allowed σ e) (s : Step) (results : List Outcome)
    : Follows host Allowed (confirm host s results hash) := by
  obtain ⟨text, hconfirm⟩ := confirm_eq host s results hash
  rw [hconfirm]
  apply follows_bind (follows_write fun σ => hwaiting σ _ trivial)
  intro _
  unfold conclude
  apply follows_bind ((follows_await hash).mono hwaiting)
  intro result
  split
  . exact follows_bind ((follows_adopt s _).mono hadopting) (fun _ => follows_pure _)
  . exact follows_pure _

theorem follows_finishStep {Allowed : Session ω → Event → Prop}
    (hwaiting : ∀ hash σ e, Waiting hash σ e → Allowed σ e)
    (hadopting : ∀ σ e, Adopting σ e → Allowed σ e) (s : Step) (results : List Outcome)
    : Follows host Allowed (finishStep host s results) := by
  unfold finishStep
  split
  . split <;> exact follows_pure _
  . split
    . exact follows_pure _
    . split
      . exact follows_bind (follows_write fun σ => hadopting σ _ trivial) (fun _ => follows_pure _)
      . exact follows_confirm (hwaiting _) hadopting s results

theorem follows_runStep (s : Step) (args : List String)
    : Follows host Anything (runStep host s args) := by
  unfold runStep
  dsimp only
  split
  . exact follows_pure _
  . apply follows_bind ((follows_runCommand _ _).mono fun _ _ _ => trivial)
    intro result
    split
    . exact follows_pure _
    . exact follows_finishStep (fun _ _ _ _ => trivial) (fun _ _ _ => trivial) s _

def visit (host : Host ω) (observe : StepOutcome → ω → ω) (target : String) (args : List String)
    (position : Nat) (s : Step) : StateM (Session ω) (StepOutcome × Option Fault) := do
  write .info ("target " ++ target ++ ": step #" ++ toString position ++ " runs " ++ s.command)
  let (outcome, fault) ← runStep host s args
  onTrace (Trace.outside fun w => ((), observe outcome w))
  return (outcome, fault)

def observed (observe : StepOutcome → ω → ω) (o : StepOutcome) (σ : Session ω) : Session ω :=
  { σ with trace := { σ.trace with world := observe o σ.trace.world } }

theorem run_visit (host : Host ω) (observe : StepOutcome → ω → ω) (target : String)
    (args : List String) (position : Nat) (s : Step) (σ : Session ω)
    : ∃ text,
        visit host observe target args position s σ
          =
        ((runStep host s args (σ.after host (.log .info text))).1,
          observed observe (runStep host s args (σ.after host (.log .info text))).1.1
            (runStep host s args (σ.after host (.log .info text))).2) :=
  ⟨_, rfl⟩

def proceed (host : Host ω) (observe : StepOutcome → ω → ω) (target : String) (args : List String)
    (position : Nat) (s : Step) (steps : List Step) (o : StepOutcome)
    : Option Fault → StateM (Session ω) (List StepOutcome × Option Halt)
  | some reason => do
    write .error ("stopping target " ++ target ++ " at step #" ++ toString position ++ " ("
      ++ s.command ++ "): " ++ reason.kind.text)
    return ([o], some { step := position, command := s.command, reason })
  | none => do
    let (outcomes, halt) ← runSteps host observe target args (position + 1) steps
    return (o :: outcomes, halt)

theorem runSteps_cons (host : Host ω) (observe : StepOutcome → ω → ω) (target : String)
    (args : List String) (position : Nat) (s : Step) (steps : List Step)
    : runSteps host observe target args position (s :: steps)
        =
      (do
        let (o, fault) ← visit host observe target args position s
        proceed host observe target args position s steps o fault) := by
  unfold visit
  simp only [runSteps, bind_assoc, pure_bind]
  rfl

theorem runSteps_of_visit {position : Nat} {s : Step} {steps : List Step} {o : StepOutcome}
    {fault : Option Fault}
    (h : visit host observe target args position s σ = ((o, fault), σ'))
    : runSteps host observe target args position (s :: steps) σ
        =
      proceed host observe target args position s steps o fault σ' := by
  rw [runSteps_cons]
  simp only [bind, StateT.bind, h]

theorem run_proceed_fault (host : Host ω) (observe : StepOutcome → ω → ω) (target : String)
    (args : List String) (position : Nat) (s : Step) (steps : List Step) (o : StepOutcome)
    (reason : Fault) (σ : Session ω)
    : ∃ text,
        proceed host observe target args position s steps o (some reason) σ
          =
        (([o], some { step := position, command := s.command, reason }),
          σ.after host (.log .error text)) :=
  ⟨_, rfl⟩

theorem run_proceed_none {position : Nat} {s : Step} {steps : List Step} {o : StepOutcome}
    {outcomes : List StepOutcome} {halt : Option Halt}
    (h : runSteps host observe target args (position + 1) steps σ = ((outcomes, halt), σ'))
    : proceed host observe target args position s steps o none σ = ((o :: outcomes, halt), σ') := by
  unfold proceed
  simp only [bind, StateT.bind, h]
  rfl

theorem like_visit (host : Host ω) (observe : StepOutcome → ω → ω) (target : String)
    (args : List String) (position : Nat) (s : Step) (σ : Session ω)
    : σ.plan.Like (visit host observe target args position s σ).2.plan := by
  obtain ⟨text, hvisit⟩ := run_visit host observe target args position s σ
  rw [hvisit]
  exact (after_like host σ (.log .info text)).trans (follows_runStep s args _).like

theorem runSteps_relates {R : Session ω → Session ω → Prop} {P : Plan → Prop} {position : Nat}
    {steps : List Step} (hrefl : ∀ σ, R σ σ)
    (htrans : ∀ {σ σ₁ σ₂ : Session ω}, R σ σ₁ → R σ₁ σ₂ → R σ σ₂)
    (hlog : ∀ σ level text, R σ (σ.after host (.log level text)))
    (hlike : ∀ {p q : Plan}, p.Like q → P p → P q)
    (hvisit : ∀ s ∈ steps, ∀ position (σ : Session ω), P σ.plan →
      R σ (visit host observe target args position s σ).2)
    (hplan : P σ.plan)
    : R σ (runSteps host observe target args position steps σ).2 := by
  induction steps generalizing position σ with
  | nil => exact hrefl σ
  | cons s steps ih =>
    have hfirst := hvisit s (List.mem_cons_self ..) position σ hplan
    have hplan' := hlike (like_visit host observe target args position s σ) hplan
    cases hvisited : visit host observe target args position s σ with
    | mk result σ₁ =>
      obtain ⟨o, fault⟩ := result
      rw [hvisited] at hfirst hplan'
      rw [runSteps_of_visit hvisited]
      apply htrans hfirst
      -- A step that fails is the last one; behind any other one the rest runs.
      cases fault with
      | some reason =>
        obtain ⟨text, hproceed⟩ :=
          run_proceed_fault host observe target args position s steps o reason σ₁
        rw [hproceed]
        exact hlog σ₁ .error text
      | none =>
        rw [run_proceed_none rfl]
        exact ih (fun s' hs' => hvisit s' (List.mem_cons_of_mem _ hs')) hplan'

theorem like_runSteps (host : Host ω) (observe : StepOutcome → ω → ω) (target : String)
    (args : List String) (position : Nat) (steps : List Step) (σ : Session ω)
    : σ.plan.Like (runSteps host observe target args position steps σ).2.plan := by
  apply runSteps_relates (R := fun σ σ' => σ.plan.Like σ'.plan) (P := fun _ => True)
  . exact fun σ => .refl _
  . exact fun h h' => h.trans h'
  . exact fun σ level text => after_like host σ (.log level text)
  . exact fun _ _ => trivial
  . exact fun s _ position σ _ => like_visit host observe target args position s σ
  . trivial

/--
The sessions that a checked playbook gets to by running commands and targets, against any hosts and
with any world around it.
-/
inductive Reachable : Session ω → Prop where
  | start {services : Services ω} {d : Document} {i : Invocation} {p : Plan} {t t' : Trace ω}
      {node : Option (Node ω)} (h : (Plan.ofDocument services d i).run t = (.ok (p, node), t'))
      (trace : Trace ω) : Reachable { plan := p, trace }
  | command {σ : Session ω} (h : Reachable σ) (host : Host ω) (name : String) (args : List String)
      : Reachable ((runCommand host name args).run σ).2
  | target {σ : Session ω} (h : Reachable σ) (host : Host ω) (observe : StepOutcome → ω → ω)
      (name : String) (args : List String) : Reachable ((runTarget host observe name args).run σ).2
  | outside {σ : Session ω} (h : Reachable σ) (trace : Trace ω) : Reachable { σ with trace }

theorem run_runTarget {name : String} {t : Target} {steps : List StepOutcome} {halt : Option Halt}
    (ht : σ.plan.targets.find? name = some t)
    (h : runSteps host observe name args 0 t.steps σ = ((steps, halt), σ'))
    : (runTarget host observe name args).run σ = (.ok { target := name, steps, halt }, σ') := by
  unfold runTarget
  rw [Action.run_bind_ok (Action.run_get σ), ht]
  dsimp only
  rw [Action.run_bind_ok (Action.run_perform _ σ), h]
  rfl

theorem runTarget_cases {P : Session ω → Prop} {name : String} (hunknown : P σ)
    (hsteps : ∀ t, σ.plan.targets.find? name = some t →
      P (runSteps host observe name args 0 t.steps σ).2)
    : P ((runTarget host observe name args).run σ).2 := by
  cases ht : σ.plan.targets.find? name with
  | none =>
    unfold runTarget
    rw [Action.run_bind_ok (Action.run_get σ), ht]
    exact hunknown
  | some t =>
    rw [run_runTarget ht rfl]
    exact hsteps t ht

theorem like_runTarget (host : Host ω) (observe : StepOutcome → ω → ω) (name : String)
    (args : List String) (σ : Session ω)
    : σ.plan.Like ((runTarget host observe name args).run σ).2.plan :=
  runTarget_cases (P := fun σ' => σ.plan.Like σ'.plan) (.refl _) fun _ _ => like_runSteps ..

theorem Reachable.invariant {P : Plan → Prop} (hσ : σ.Reachable)
    (hstart : ∀ {services : Services ω} {d : Document} {i : Invocation} {t t' : Trace ω} {p : Plan}
      {node : Option (Node ω)}, (Plan.ofDocument services d i).run t = (.ok (p, node), t') → P p)
    (hlike : ∀ {p q : Plan}, p.Like q → P p → P q) : P σ.plan := by
  induction hσ with
  | start h => exact hstart h
  | command _ host name args ih => exact hlike (follows_runCommand name args _).like ih
  | target _ host observe name args ih => exact hlike (like_runTarget ..) ih
  | outside _ _ ih => exact ih

theorem Reachable.sound (h : σ.Reachable) : ∃ d, σ.plan.Sound d := by
  refine h.invariant (P := fun p => ∃ d, p.Sound d) ?_ ?_
  . intro _ d _ _ _ _ _ hchecked
    exact ⟨d, Plan.sound_of_ofDocument hchecked⟩
  . intro _ _ hlike ⟨d, hp⟩
    exact ⟨d, hlike.sound hp⟩

theorem Reachable.targetsFit (h : σ.Reachable) : σ.plan.TargetsFit := by
  obtain ⟨d, hsound⟩ := h.sound
  exact hsound.targetsFit

/--
The steps that were run, one behind the other, from one session to another. What is asked for
belongs to one of them.
-/
inductive Visited (host : Host ω) (observe : StepOutcome → ω → ω) (target : String)
    (args : List String) : Nat → Session ω → List Visit → Session ω → Prop where
  | nil (position : Nat) (σ : Session ω) : Visited host observe target args position σ [] σ
  | cons {position : Nat} {σ σ₁ σ' : Session ω} {s : Step} {o : StepOutcome} {fault : Option Fault}
      {new : List Exchange} {vs : List Visit}
      (h : visit host observe target args position s σ = ((o, fault), σ₁))
      (hnew : σ₁.trace.exchanges = new ++ σ.trace.exchanges)
      (hrest : Visited host observe target args (position + 1) σ₁ vs σ')
      : Visited host observe target args position σ (⟨s, o, new⟩ :: vs) σ'

theorem Visited.exchanges {position : Nat} {vs : List Visit}
    (h : Visited host observe target args position σ vs σ')
    : σ'.trace.exchanges = vs.reverse.flatMap Visit.asked ++ σ.trace.exchanges := by
  induction h with
  | nil => rfl
  | cons _ hnew _ ih =>
    rw [ih, hnew, List.reverse_cons, List.flatMap_append, List.append_assoc]
    simp

/--
`seen` reads the outcomes that the world has seen off it: nothing but an observation changes them.
-/
structure Records (host : Host ω) (observe : StepOutcome → ω → ω) (seen : ω → List StepOutcome)
    : Prop where
  ask : ∀ r w, seen (host.node.ask r w).2 = seen w
  unlock : ∀ a password w, seen (host.keyring.unlock a password w).2 = seen w
  observe : ∀ o w, seen (observe o w) = seen w ++ [o]

theorem Records.runs {seen : ω → List StepOutcome} (hseen : Records host observe seen)
    (h : Runs host Anything σ σ') : seen σ'.trace.world = seen σ.trace.world := by
  induction h with
  | nil => rfl
  | cons e _ _ ih =>
    rw [ih]
    -- Only the node and the keyring touch the world.
    cases e with
    | ask r => exact hseen.ask r _
    | unlock a password => exact hseen.unlock a password _
    | _ => rfl

theorem Visited.seen {seen : ω → List StepOutcome} (hseen : Records host observe seen)
    {position : Nat} {vs : List Visit} (h : Visited host observe target args position σ vs σ')
    : seen σ'.trace.world = seen σ.trace.world ++ vs.map Visit.outcome := by
  induction h with
  | nil => simp
  | @cons position σ σ₁ σ' s o fault new vs h _ _ ih =>
    obtain ⟨text, hvisit⟩ := run_visit host observe target args position s σ
    have hruns : Runs host Anything σ (runStep host s args (σ.after host (.log .info text))).2 :=
      .cons (.log .info text) trivial (follows_runStep s args _)
    rw [hvisit] at h
    obtain ⟨houtcome, rfl⟩ := Prod.mk.inj h
    rw [ih, List.map_cons]
    have hobserve := hseen.observe o
      (runStep host s args (σ.after host (.log .info text))).2.trace.world
    rw [hseen.runs hruns] at hobserve
    rw [houtcome]
    show seen (observe o _) ++ _ = _
    rw [hobserve, List.append_assoc, List.singleton_append]

theorem visit_spec {s : Step} (host : Host ω) (observe : StepOutcome → ω → ω) (target : String)
    (args : List String) (position : Nat) (hkind : σ.plan.kind? s.command = some s.kind)
    : ∃ o fault σ' new,
        visit host observe target args position s σ = ((o, fault), σ') ∧
        σ'.trace.exchanges = new ++ σ.trace.exchanges ∧
        (fault.isSome ↔ (⟨s, o, new⟩ : Visit).Failed) ∧
        ∀ e, s.argsFor args = .error e → fault.isSome := by
  obtain ⟨text, hvisit⟩ := run_visit host observe target args position s σ
  have hkind' : (σ.after host (.log .info text)).plan.kind? s.command = some s.kind := hkind
  obtain ⟨o, fault, σ₁, new, hstep, hstepped⟩ := exists_stepped host args hkind'
  rw [hstep] at hvisit
  exact ⟨o, fault, _, new, hvisit, hstepped.exchanges, hstepped.failed, hstepped.unresolved⟩

def Stops (position : Nat) (vs : List Visit) (rest : List Step) (halt : Option Halt) : Prop :=
  (halt = none ∧ rest = [] ∧ ∀ v ∈ vs, ¬ v.Failed) ∨
    ∃ h before last,
      halt = some h ∧
      vs = before ++ [last] ∧
      h.step = position + before.length ∧
      h.command = last.step.command ∧
      last.Failed ∧
      ∀ v ∈ before, ¬ v.Failed

theorem Stops.cons {position : Nat} {v : Visit} {vs : List Visit} {rest : List Step}
    {halt : Option Halt} (hv : ¬ v.Failed) (h : Stops (position + 1) vs rest halt)
    : Stops position (v :: vs) rest halt := by
  rcases h with ⟨hhalt, hrest, hall⟩ | ⟨h, before, last, hhalt, rfl, hstep, hcommand, hlast, hall⟩
  . exact .inl ⟨hhalt, hrest, List.forall_mem_cons.mpr ⟨hv, hall⟩⟩
  . refine .inr ⟨h, v :: before, last, hhalt, rfl, ?_, hcommand, hlast,
      List.forall_mem_cons.mpr ⟨hv, hall⟩⟩
    rw [hstep, List.length_cons]
    omega

theorem Stops.step {vs : List Visit} {rest : List Step} {halt : Option Halt} {h : Halt}
    (hstops : Stops 0 vs rest halt) (hhalt : halt = some h) : h.step + 1 = vs.length := by
  rcases hstops with ⟨hnone, _⟩ | ⟨h', before, last, hsome, rfl, hstep, _⟩
  . rw [hnone] at hhalt
    cases hhalt
  . rw [hsome] at hhalt
    cases hhalt
    rw [hstep, List.length_append, List.length_singleton, Nat.zero_add]

theorem Stops.isSome_iff {vs : List Visit} {rest : List Step} {halt : Option Halt}
    (hstops : Stops 0 vs rest halt) : halt.isSome ↔ ∃ v, vs.getLast? = some v ∧ v.Failed := by
  rcases hstops with ⟨rfl, _, hall⟩ | ⟨h, before, last, rfl, rfl, _, _, hlast, _⟩
  . simp only [Option.isSome_none, Bool.false_eq_true, false_iff]
    rintro ⟨v, hv, hfailed⟩
    exact hall v (List.mem_of_getLast? hv) hfailed
  . rw [List.getLast?_concat]
    exact ⟨fun _ => ⟨last, rfl, hlast⟩, fun _ => rfl⟩

theorem Stops.eq_none_iff {vs : List Visit} {rest : List Step} {halt : Option Halt}
    (hstops : Stops 0 vs rest halt) : halt = none ↔ rest = [] ∧ ∀ v ∈ vs, ¬ v.Failed := by
  rcases hstops with ⟨rfl, hrest, hall⟩ | ⟨h, before, last, rfl, rfl, _, _, hlast, _⟩
  . exact ⟨fun _ => ⟨hrest, hall⟩, fun _ => rfl⟩
  . constructor
    . intro h
      cases h
    . intro ⟨_, hall⟩
      exact absurd hlast (hall last (List.mem_append_right _ (List.mem_singleton.mpr rfl)))

theorem Stops.dropLast {vs : List Visit} {rest : List Step} {halt : Option Halt}
    (hstops : Stops 0 vs rest halt) : ∀ v ∈ vs.dropLast, ¬ v.Failed := by
  rcases hstops with ⟨_, _, hall⟩ | ⟨_, before, last, _, rfl, _, _, _, hall⟩
  . exact fun v hv => hall v ((List.dropLast_subset _) hv)
  . rw [List.dropLast_concat]
    exact hall

theorem runSteps_spec (host : Host ω) (observe : StepOutcome → ω → ω) (target : String)
    (args : List String) (position : Nat) {steps : List Step}
    (hkinds : ∀ s ∈ steps, σ.plan.kind? s.command = some s.kind)
    : ∃ vs rest halt σ₁ σ',
        runSteps host observe target args position steps σ = ((vs.map Visit.outcome, halt), σ') ∧
        steps = vs.map Visit.step ++ rest ∧
        Visited host observe target args position σ vs σ₁ ∧
        σ'.trace.exchanges = σ₁.trace.exchanges ∧
        σ'.trace.world = σ₁.trace.world ∧
        Stops position vs rest halt ∧
        ∀ v ∈ vs, ∀ e, v.step.argsFor args = .error e → v.Failed := by
  induction steps generalizing position σ with
  | nil =>
    refine ⟨[], [], none, σ, σ, rfl, rfl, .nil _ _, rfl, rfl, .inl ⟨rfl, rfl, ?_⟩, ?_⟩
    . intro v hv
      cases hv
    . intro v hv
      cases hv
  | cons s steps ih =>
    have hkind : σ.plan.kind? s.command = some s.kind := hkinds s (List.mem_cons_self ..)
    obtain ⟨o, fault, σ₁, new, hvisit, hnew, hfailed, hargs⟩ :=
      visit_spec host observe target args position hkind
    rw [runSteps_of_visit hvisit]
    -- A step that fails is the last one; behind any other one the rest runs.
    cases fault with
    | some reason =>
      obtain ⟨text, hproceed⟩ :=
        run_proceed_fault host observe target args position s steps o reason σ₁
      have hlast : (⟨s, o, new⟩ : Visit).Failed := hfailed.mp rfl
      refine ⟨[⟨s, o, new⟩], steps, _, σ₁, _, hproceed, rfl, .cons hvisit hnew (.nil _ _), rfl, rfl,
        .inr ⟨_, [], ⟨s, o, new⟩, rfl, rfl, rfl, rfl, hlast, ?_⟩, ?_⟩
      . intro v hv
        cases hv
      . intro v hv _ _
        rw [List.mem_singleton.mp hv]
        exact hlast
    | none =>
      have hdone : ¬ (⟨s, o, new⟩ : Visit).Failed := by
        rw [← hfailed]
        simp
      -- The step leaves a plan in which the commands are of the same kinds.
      have hlike := like_visit host observe target args position s σ
      rw [hvisit] at hlike
      have hkinds' := hlike.kinds (List.forall_mem_cons.mp hkinds).2
      obtain ⟨vs, rest, halt, σ₂, σ', hrun, hsteps, hvisited, hexchanges, hworld, hstops, hall⟩ :=
        ih (position + 1) hkinds'
      refine ⟨⟨s, o, new⟩ :: vs, rest, halt, σ₂, σ', run_proceed_none hrun, ?_,
        .cons hvisit hnew hvisited, hexchanges, hworld, hstops.cons hdone, ?_⟩
      . rw [hsteps]
        rfl
      . intro v hv e he
        cases List.mem_cons.mp hv with
        | inl heq =>
          rw [heq] at he
          cases hargs e he
        | inr hmem => exact hall v hmem e he

/--
A target of a checked playbook runs the steps of a non-empty prefix, shows each of them to the world
once and asks for nothing else. It halts just if the last one of these fails, and no other one does.
-/
theorem runTarget_visits {name : String} {t : Target} (host : Host ω)
    (observe : StepOutcome → ω → ω) (args : List String) (hσ : σ.Reachable)
    (ht : σ.plan.targets.find? name = some t)
    : ∃ vs rest halt σ₁ σ',
        (runTarget host observe name args).run σ
          =
        (.ok { target := name, steps := vs.map Visit.outcome, halt }, σ') ∧
        t.steps = vs.map Visit.step ++ rest ∧
        vs ≠ [] ∧
        Visited host observe name args 0 σ vs σ₁ ∧
        σ'.trace.exchanges = vs.reverse.flatMap Visit.asked ++ σ.trace.exchanges ∧
        (∀ seen, Records host observe seen →
          seen σ'.trace.world = seen σ.trace.world ++ vs.map Visit.outcome) ∧
        (∀ h, halt = some h → h.step + 1 = vs.length) ∧
        (halt.isSome ↔ ∃ v, vs.getLast? = some v ∧ v.Failed) ∧
        (halt = none ↔ rest = [] ∧ ∀ v ∈ vs, ¬ v.Failed) ∧
        (∀ v ∈ vs.dropLast, ¬ v.Failed) ∧
        ∀ v ∈ vs, ∀ e, v.step.argsFor args = .error e → v.Failed := by
  have hfits := hσ.targetsFit name t ht
  obtain ⟨vs, rest, halt, σ₁, σ', hrun, hsteps, hvisited, hexchanges, hworld, hstops, hargs⟩ :=
    runSteps_spec host observe name args 0 fun s hs => (hfits.steps s hs).kind
  have hne : vs ≠ [] := by
    rintro rfl
    rcases hstops with ⟨_, rfl, _⟩ | ⟨_, before, last, _, hnil, _⟩
    . exact hfits.steps_ne_nil hsteps
    . simp at hnil
  refine ⟨vs, rest, halt, σ₁, σ', run_runTarget ht hrun, hsteps, hne, hvisited, ?_, ?_,
    fun h => hstops.step, hstops.isSome_iff, hstops.eq_none_iff, hstops.dropLast, hargs⟩
  . rw [hexchanges, hvisited.exchanges]
  . intro seen hseen
    rw [hworld, hvisited.seen hseen]

def silentHost : Host Unit where
  node := { ask := fun _ w => (.error (.ofNote .network "no answer"), w) }
  keyring :=
    { register := fun _ _ w => w
      unregister := fun _ _ w => w
      unlock := fun _ _ w => (.unregistered, w) }
  policy := {}

def silentServices : Services Unit where
  shelf := { files := {}, base := ⟨"."⟩ }
  keyring := silentHost.keyring
  network := { connect := fun _ w => (.error (.ofNote .network "no node"), w) }

def twoStepDocument : Document where
  wallets := some []
  calls := some [("height", { method := "eth_blockNumber" })]
  targets := some [("check", [.detailed "height" [.string "$0"] false, .short "height"])]

theorem exists_twoStep
    : ∃ p t,
        (Plan.ofDocument silentServices twoStepDocument {}).run { world := () }
          = (.ok (p, none), t) ∧
        p.targets.find? "check"
          =
        some { name := "check",
               steps := [⟨"height", .call, false, some ["$0"]⟩, ⟨"height", .call, false, none⟩] } :=
  ⟨_, _, rfl, rfl⟩

theorem runTarget_check
    : ∃ (σ σ' : Session Unit) (v : Visit) (h : Halt),
        σ.Reachable ∧
        (runTarget silentHost (fun _ w => w) "check" []).run σ
          =
        (.ok { target := "check", steps := [v.outcome], halt := some h }, σ') ∧
        h.step = 0 ∧
        v.Failed := by
  obtain ⟨p, t, hchecked, htarget⟩ := exists_twoStep
  have hσ : Reachable { plan := p, trace := t } := .start hchecked t
  obtain ⟨vs, rest, halt, _, σ', hrun, hsteps, hne, _, _, _, hstep, hhalt, _, hbefore, hargs⟩ :=
    runTarget_visits silentHost (fun _ w => w) [] hσ htarget
  cases vs with
  | nil => exact absurd rfl hne
  | cons v vs =>
    have hv : v.Failed := by
      obtain ⟨e, he⟩ : ∃ e, v.step.argsFor [] = .error e := by
        have hmissing : substituteArgs "$0" [] = .error 0 := substituteArgs_token (by decide) []
        rw [← (List.cons.inj hsteps).1]
        unfold Step.argsFor
        simp only [List.mapM_cons, hmissing]
        exact ⟨_, rfl⟩
      exact hargs v (List.mem_cons_self ..) e he
    cases vs with
    | nil =>
      obtain ⟨h, rfl⟩ := Option.isSome_iff_exists.mp (hhalt.mpr ⟨v, rfl, hv⟩)
      exact ⟨_, σ', v, h, hσ, hrun, Nat.succ.inj (hstep h rfl), hv⟩
    | cons v' vs => exact absurd hv (hbefore v (List.mem_cons_self ..))

end Runbook.Session
