import Runbook.Cli.Options
import Runbook.Cli.Output
import Runbook.Document.Reader
import Runbook.Plan.Sound

/-!
This module contains the program behind the command line.
-/

namespace Runbook

variable {ω : Type}

inductive ProgramFault where
  | unloadable (path : Path) (message : String)
  | unsound (message : String)
  | unknownName (name : String)
  | wrongArity (name : String) (expected given : Nat)
  | failed (message : String)
deriving Repr, DecidableEq

def ProgramFault.message : ProgramFault → String
  | unloadable path message => "failed to load playbook from " ++ path.text ++ ": " ++ message
  | unsound message => "playbook validation failed: " ++ message
  | unknownName name => "'" ++ name ++ "' is neither a command nor a target"
  | wrongArity name expected given =>
    "'" ++ name ++ "' expects " ++ toString expected ++ " argument(s), " ++ toString given
      ++ " given"
  | failed message => message

def Document.load (files : Files) (path : Path) : Result Document :=
  match files.read? path with
  | some text => Document.parse text
  | none => fail .validation ("unable to read playbook " ++ path.text)

def Path.base (path : Path) : Path :=
  match path.parent? with
  | some folder => if folder.text.isEmpty then ⟨"."⟩ else folder
  | none => ⟨"."⟩

structure Program (ω : Type) where
  files : Files
  keyring : Keyring ω
  compiler : Compiler ω
  network : Network ω
  cancel : Option Cancel := none
  print : String → ω → ω

namespace Program

abbrev Answer := Except ProgramFault Bool

def say (p : Program ω) (line : String) : StateM (Trace ω) Unit :=
  Trace.outside fun w => ((), p.print line w)

def sayAll (p : Program ω) : List String → StateM (Trace ω) Unit
  | [] => return ()
  | line :: lines => do
    p.say line
    sayAll p lines

def outcomeLines (os : List Outcome) : List String :=
  os.map fun o => Json.write o.line

def observe (p : Program ω) (s : StepOutcome) (w : ω) : ω :=
  (outcomeLines s.results).foldl (fun w line => p.print line w) w

def haltText (h : Halt) : String :=
  "stopped at step #" ++ toString h.step ++ " (" ++ h.command ++ "): " ++ h.reason.located

def execute (p : Program ω) (plan : Plan) (node : Node ω) (name : String) (args : List String) :
    StateM (Trace ω) Answer := fun t =>
  let host : Host ω :=
    { node, keyring := p.keyring, policy := { timeout := plan.config.awaitTimeout },
      cancel := p.cancel }
  let session : Session ω := { plan, trace := t }
  if plan.targets.contains name then
    match (Session.runTarget host p.observe name args).run session with
    | (.error e, s) => (.error (.failed e.located), s.trace)
    | (.ok outcome, s) =>
      match outcome.halt with
      | some h =>
        let line := Json.write (errorLine name (haltText h))
        (.ok false, (p.say line s.trace).2)
      | none => (.ok ((outcome.steps.flatMap StepOutcome.results).all Outcome.isOk), s.trace)
  else
    match (Session.runCommand host name args).run session with
    | (.error e, s) => (.error (.failed e.located), s.trace)
    | (.ok outcomes, s) =>
      (.ok (outcomes.all Outcome.isOk), (p.sayAll (outcomeLines outcomes) s.trace).2)

def run (p : Program ω) (o : Options) : StateM (Trace ω) Answer := do
  let path : Path := ⟨o.file⟩
  match Document.load p.files path with
  | .error e => return .error (.unloadable path e.located)
  | .ok d =>
    let services : Services ω :=
      { shelf := { files := p.files, base := path.base }, keyring := p.keyring,
        compiler := some p.compiler, network := p.network }
    -- A listing has nothing to run, so that no node is contacted.
    let invocation : Invocation :=
      { name := if o.list then none else o.name, args := o.args, group := o.group }
    match ← (Plan.ofDocument services d invocation).outcome with
    | .error e => return .error (.unsound e.located)
    | .ok (plan, node) =>
      if o.list then
        p.sayAll (plan.entries.map Plan.Entry.line)
        return .ok true
      else
        match o.name with
        | none =>
          Trace.write .info ("playbook " ++ path.text ++ " is valid")
          return .ok true
        | some name =>
          match plan.arity? name, node with
          | none, _ => return .error (.unknownName name)
          | some expected, node =>
            if o.args.length ≠ expected then
              return .error (.wrongArity name expected o.args.length)
            else
              match node with
              | none => return .error (.failed "no node was selected to run against")
              | some node => p.execute plan node name o.args

end Program

end Runbook
