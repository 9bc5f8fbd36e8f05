import Runbook.Contract.Catalogue
import Runbook.Contract.Compiler
import Runbook.Node.Trace

/-!
This module contains the contracts that a playbook declares: their builds are loaded or compiled,
and their instances are entered in the catalogue.
-/

namespace Runbook.Catalogue

variable {ω : Type}

def Outputs := List ((Path × Option Nat) × Entries Build)

def Outputs.find? (outputs : Outputs) (source : String) (runs : Option Nat) :
    Option (Entries Build) :=
  (List.find? (fun ((path, n), _) => path.names == (Path.mk source).names && n == runs) outputs).map
    Prod.snd

def compileOnce (compiler : Compiler ω) (outputs : Outputs) (source : String) (runs : Option Nat) :
    Action (Trace ω) (Entries Build × Outputs) := do
  match outputs.find? source runs with
  | some output => return (output, outputs)
  | none =>
    Action.perform (Trace.write .info ("compiling " ++ source))
    let output ← ExceptT.mk (Trace.outside (compiler.compile source runs))
    return (output, ((⟨source⟩, runs), output) :: outputs)

def buildDecl (compiler? : Option (Compiler ω)) (shelf : Shelf) (outputs : Outputs)
    (key : String) (d : ContractDecl) : Action (Trace ω) (Build × Outputs) := do
  match d.sol, d.artifact with
  | some _, some _ => Action.fail .validation "contract sets both sol and artifact"
  | none, none => Action.fail .validation "contract needs either a sol source or an artifact"
  | none, some artifact =>
    return (← Action.ofResult (Artifact.load shelf.files (shelf.base.join ⟨artifact⟩)), outputs)
  | some source, none =>
    match compiler? with
    | none =>
      Action.fail .compilation ("no Solidity compiler available to build " ++ source)
    | some compiler =>
      let (output, outputs) ← compileOnce compiler outputs source d.optimize
      let name := d.name.getD key
      match output.find? name with
      | some build => return (build, outputs)
      | none =>
        Action.fail .compilation
          ("contract " ++ name ++ " not found in compiled output of " ++ source)

/--
Enter the instances of a contract. No two instances have the same name.
-/
def addInstances (key : String) : Catalogue → List InstanceDecl → Result Catalogue
  | c, [] => pure c
  | c, d :: ds => do
    let address ← Instance.addressOf d.address
    match d.name with
    | some name =>
      if (c.findNamed? name).isSome then
        fail .validation ("duplicate contract instance name '" ++ name ++ "'")
      else
        addInstances key (c.add { name := some name, contract := key, address }).2 ds
    | none => addInstances key (c.add { name := none, contract := key, address }).2 ds

def addDecls (compiler? : Option (Compiler ω)) (shelf : Shelf) (outputs : Outputs)
    (c : Catalogue) : Entries ContractDecl → Action (Trace ω) Catalogue
  | [] => return c
  | (key, d) :: ds => do
    let (build, outputs) ← (buildDecl compiler? shelf outputs key d).located "CONTRACTS" key
    let c := { c with builds := c.builds.set key build }
    let c ← (Action.ofResult (addInstances key c d.instances)).located "CONTRACTS" key
    addDecls compiler? shelf outputs c ds

def ofDecls (compiler? : Option (Compiler ω)) (shelf : Shelf) (ds : Entries ContractDecl) :
    Action (Trace ω) Catalogue :=
  addDecls compiler? shelf [] {} ds

end Runbook.Catalogue
