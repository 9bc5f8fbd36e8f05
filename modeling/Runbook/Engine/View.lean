import Runbook.Abi.Call
import Runbook.Engine.Session

/-!
This module contains the view calls of a session: calls of contract methods that change nothing, and
the token symbols that are found out by them.
-/

namespace Runbook

variable {ω : Type}

def Plan.viewCall (p : Plan) (id : Nat) (method : String) (sender : Option Address)
    (values : List Value) : Result (ViewCall × Abi.Function) := do
  let build ← p.catalogue.buildOf id
  match (p.catalogue.instance? id).bind Instance.address with
  | none => fail .resolution "contract instance is not deployed yet"
  | some recipient =>
    let f ← build.interface.find method values.length
    return ({ sender, recipient, data := ← f.callData values }, f)

def Catalogue.tellsSymbol (c : Catalogue) (id : Nat) : Bool :=
  match c.buildOf id with
  | .ok build => (build.interface.functionsNamed "symbol").any (·.inputs.isEmpty)
  | .error _ => false

namespace Session

def view (host : Host ω) (id : Nat) (method : String) (sender : Option Address)
    (values : List Value) : Action (Session ω) Json := do
  let (call, f) ← reads (·.viewCall id method sender values)
  let output ← ask host (.view call)
  Action.ofResult (f.decodeOutputs output)

def fetchSymbol (host : Host ω) (id : Nat) : StateM (Session ω) Unit := do
  let catalogue := (← get).plan.catalogue
  if catalogue.tellsSymbol id then
    match ← (view host id "symbol" none []).outcome with
    | .ok (.string symbol) =>
      if !symbol.isEmpty then
        let symbol := Text.upper symbol
        write .info ("contract " ++ catalogue.label id ++ " has token symbol " ++ symbol)
        modifyCatalogue (·.setSymbol id (some symbol))
    | .ok _ => return ()
    | .error e =>
      write .warn
        ("unable to fetch token symbol of " ++ catalogue.label id ++ ": " ++ e.kind.name)

/--
Whether an instance is still to be asked for its symbol. Only deployed ones can be asked.
-/
def isUnprobed (s : Session ω) (id : Nat) : Bool :=
  !s.probed.contains id && ((s.plan.catalogue.instance? id).map Instance.isDeployed).getD false

def markProbed (id : Nat) : StateM (Session ω) Unit :=
  modify fun s => { s with probed := id :: s.probed }

def discover (host : Host ω) : List Nat → StateM (Session ω) Unit
  | [] => return ()
  | id :: ids => do
    if (← get).isUnprobed id then
      markProbed id
      fetchSymbol host id
    discover host ids

def discoverSymbols (host : Host ω) : StateM (Session ω) Unit := do
  discover host (← get).plan.catalogue.ids

end Session

end Runbook
