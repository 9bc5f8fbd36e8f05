import Runbook.Engine.Query
import Runbook.Engine.Write

/-!
This module contains the running of commands by name, and of targets, whose steps run until one
fails.
-/

namespace Runbook

variable {ω : Type}

structure StepOutcome where
  command : String
  results : List Outcome
  /-- The receipt of a write that was waited for. -/
  receipt : Option Receipt := none

structure Halt where
  step : Nat
  command : String
  reason : Fault

structure TargetOutcome where
  target : String
  steps : List StepOutcome
  halt : Option Halt

def Step.argsFor (s : Step) (args : List String) : Result (List String) :=
  match s.args with
  | none => pure args
  | some templates => templates.mapM fun template =>
    match substituteArgs template args with
    | .ok text => pure text
    | .error index =>
      fail .resolution ("insufficient arguments: step " ++ s.command ++ " needs $" ++ toString index
        ++ " but " ++ toString args.length ++ " were supplied")

namespace Session

/--
Run a command. Calls and reads have one outcome for each wallet, writes have one.
-/
def runCommand (host : Host ω) (name : String) (args : List String) :
    Action (Session ω) (List Outcome) := do
  let plan := (← get).plan
  match plan.kind? name with
  | none => Action.fail .validation ("no command named '" ++ name ++ "'")
  | some kind =>
    note .info ("running " ++ kind.text ++ " command " ++ name)
    match kind with
    | .call =>
      match plan.calls.find? name with
      | some c => Action.perform (runCall host c args)
      | none => return []
    | .read =>
      match plan.reads.find? name with
      | some c => Action.perform (runRead host c args)
      | none => return []
    | .write =>
      match plan.writes.find? name with
      | some c => return [← Action.perform (runWrite host c args)]
      | none =>
        return [{ command := name,
                  result := fail .validation ("no write command named '" ++ name ++ "'") }]

def confirmDeployment (command : String) (address : Address) : StateM (Session ω) Unit := do
  let plan := (← get).plan
  match (plan.writes.find? command).bind WriteCommand.target with
  | none => return ()
  | some id =>
    if (plan.catalogue.instance? id).bind Instance.address == some address then return ()
    else
      modifyCatalogue (·.setAddress id (some address))
      write .warn ("contract " ++ plan.catalogue.label id ++ " was deployed at " ++ address.text
        ++ ", not at the predicted address")

def submitted? : List Outcome → Option Hash
  | o :: _ => if o.isOk then o.transaction else none
  | [] => none

def unsentFault (command : String) (results : List Outcome) : Fault :=
  let kind := match results with
    | { result := .error e, .. } :: _ => e.kind
    | _ => .network
  .ofNote kind ("transaction of " ++ command ++ " was not sent")

def isUnresolved (results : List Outcome) : Bool :=
  results.any fun o =>
    match o.result with
    | .error e => e.kind == .resolution
    | .ok _ => false

def confirm (host : Host ω) (s : Step) (results : List Outcome) (hash : Hash) :
    StateM (Session ω) (StepOutcome × Option Fault) := do
  write .info ("awaiting transaction " ++ hash.text ++ " of " ++ s.command ++ " (timeout "
    ++ host.policy.timeout.text ++ ")")
  match ← onTrace (await host.node host.policy host.cancel hash).run with
  | .ok receipt =>
    if let some address := receipt.contract then
      confirmDeployment s.command address
    return ({ command := s.command, results, receipt := some receipt }, none)
  | .error e => return ({ command := s.command, results }, some e)

def finishStep (host : Host ω) (s : Step) (results : List Outcome) :
    StateM (Session ω) (StepOutcome × Option Fault) := do
  let outcome : StepOutcome := { command := s.command, results }
  if s.kind ≠ .write then
    if isUnresolved results then
      return (outcome, some (.ofNote .resolution
        ("step " ++ s.command ++ " could not resolve its parameters")))
    else
      return (outcome, none)
  else
    match submitted? results with
    | none => return (outcome, some (unsentFault s.command results))
    | some hash =>
      if s.deferred then
        write .info ("not waiting for deferred step " ++ s.command)
        return (outcome, none)
      else
        confirm host s results hash

/--
Run a step. The fault, if there is one, stops the target.
-/
def runStep (host : Host ω) (s : Step) (args : List String) :
    StateM (Session ω) (StepOutcome × Option Fault) := do
  let failed (e : Fault) : StepOutcome :=
    { command := s.command, results := [{ command := s.command, result := .error e }] }
  match s.argsFor args with
  | .error e =>
    return (failed e, some (.ofNote .resolution
      ("step " ++ s.command ++ " could not resolve its arguments")))
  | .ok stepArgs =>
    match ← (runCommand host s.command stepArgs).outcome with
    | .error e =>
      return (failed e, some (.ofNote e.kind ("step " ++ s.command ++ " could not run")))
    | .ok results => finishStep host s results

def runSteps (host : Host ω) (observe : StepOutcome → ω → ω) (target : String) (args : List String)
    (position : Nat) : List Step → StateM (Session ω) (List StepOutcome × Option Halt)
  | [] => return ([], none)
  | s :: steps => do
    write .info ("target " ++ target ++ ": step #" ++ toString position ++ " runs " ++ s.command)
    let (outcome, fault) ← runStep host s args
    -- The world sees a step once it is over, and also the one that stops the target.
    onTrace (Trace.outside fun w => ((), observe outcome w))
    match fault with
    | some reason =>
      write .error ("stopping target " ++ target ++ " at step #" ++ toString position ++ " ("
        ++ s.command ++ "): " ++ reason.kind.text)
      return ([outcome], some { step := position, command := s.command, reason })
    | none =>
      let (outcomes, halt) ← runSteps host observe target args (position + 1) steps
      return (outcome :: outcomes, halt)

def runTarget (host : Host ω) (observe : StepOutcome → ω → ω) (name : String) (args : List String) :
    Action (Session ω) TargetOutcome := do
  match (← get).plan.targets.find? name with
  | none => Action.fail .validation ("no target named '" ++ name ++ "'")
  | some t =>
    let (steps, halt) ← Action.perform (runSteps host observe name args 0 t.steps)
    return { target := name, steps, halt }

end Session

end Runbook
