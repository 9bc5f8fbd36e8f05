import Runbook.Document.Basic

/-!
This module contains targets: sequences of commands, and the arguments that they take.
-/

namespace Runbook

inductive CommandKind where
  | call
  | read
  | write
deriving Repr, DecidableEq

def CommandKind.text : CommandKind → String
  | call => "call"
  | read => "read"
  | write => "write"

/--
The number of arguments that covers all `indices`, as a word of 64 bits.
-/
def arity (indices : List Nat) : Nat :=
  match indices.max? with
  | some index => (index + 1) % indexBound
  | none => 0

/--
A step runs a command. Its arguments are texts with tokens for the arguments of the target; without
any it passes on those of the target.
-/
structure Step where
  command : String
  kind : CommandKind
  /-- Whether the step is over as soon as its transaction is sent. -/
  deferred : Bool
  args : Option (List String)
deriving Repr, DecidableEq

namespace Step

def deferredMark : Char := '&'

def parts : StepDecl → String × Bool × Option (List String)
  | .short text =>
    let cs := Text.trimChars text.toList
    match cs.reverse with
    | c :: before =>
      if c = deferredMark then (String.ofList (Text.trimChars before.reverse), true, none)
      else (String.ofList cs, false, none)
    | [] => ("", false, none)
  | .detailed command args deferred => (Text.trim command, deferred, some (args.map Scalar.text))

/--
Check the step at `position`. Only commands that send transactions can be deferred.
-/
def ofDecl (kind? : String → Option CommandKind) (position : Nat) (d : StepDecl) : Result Step := do
  let (command, deferred, args) := parts d
  match kind? command with
  | none =>
    fail .validation ("step #" ++ toString position ++ " references unknown command '" ++ command
      ++ "'")
  | some kind =>
    if deferred ∧ kind ≠ .write then
      fail .validation ("step #" ++ toString position ++ " defers " ++ kind.text ++ " command '"
        ++ command ++ "', only write commands can be deferred")
    else
      return { command, kind, deferred, args }

def argIndices (commandIndices : String → List Nat) (s : Step) : List Nat :=
  match s.args with
  | some args => args.flatMap Runbook.argIndices
  | none => commandIndices s.command

end Step

structure Target where
  name : String
  steps : List Step
deriving Repr, DecidableEq

namespace Target

def stepsOf (kind? : String → Option CommandKind) (position : Nat) :
    List StepDecl → Result (List Step)
  | [] => pure []
  | d :: ds => do
    let step ← Step.ofDecl kind? position d
    return step :: (← stepsOf kind? (position + 1) ds)

/--
The target of a declaration, where `kind?` knows the commands. There has to be a step.
-/
def ofDecl (kind? : String → Option CommandKind) (name : String) (ds : List StepDecl) :
    Result Target := do
  let steps ← stepsOf kind? 0 ds
  if steps.isEmpty then fail .validation ("target '" ++ name ++ "' has no steps")
  else return { name, steps }

def argIndices (commandIndices : String → List Nat) (t : Target) : List Nat :=
  t.steps.flatMap (Step.argIndices commandIndices)

end Target

end Runbook
