import Runbook.Engine.View

/-!
This module contains the running of calls and reads, which go through their wallets one by one.
-/

namespace Runbook.Session

variable {ω : Type}

/--
Run something for each of some wallets, whatever it came to for those before.
-/
def forEachWallet (command : String) (run : Option Address → Action (Session ω) Json)
    (wallets : List String) : StateM (Session ω) (List Outcome) :=
  match wallets with
  -- Without any wallet it is run once, and nobody sends it.
  | [] => do return [{ command, result := ← (run none).outcome }]
  | wallets => go wallets
where
  go : List String → StateM (Session ω) (List Outcome)
    | [] => return []
    | name :: names => do
      match Entries.find? (← get).plan.wallets name with
      | none => go names
      | some w =>
        let result ← (run (some w.address)).outcome
        return { command, wallet := some (name, w.address), result } :: (← go names)

def callAs (host : Host ω) (c : CallCommand) (args : List String) (sender : Option Address) :
    Action (Session ω) Json := do
  let values ← reads (·.finalize c.name c.params args sender)
  ask host (.rpc c.method (values.map Value.json))

def runCall (host : Host ω) (c : CallCommand) (args : List String) :
    StateM (Session ω) (List Outcome) :=
  forEachWallet c.name (callAs host c args) c.wallets

def readAs (host : Host ω) (c : ReadCommand) (args : List String) (sender : Option Address) :
    Action (Session ω) Json := do
  let values ← reads (·.finalize c.name c.params args sender)
  view host c.target c.method sender values

/--
A read of an instance that is not deployed fails for all wallets at once.
-/
def runRead (host : Host ω) (c : ReadCommand) (args : List String) :
    StateM (Session ω) (List Outcome) := do
  let catalogue := (← get).plan.catalogue
  if ((catalogue.instance? c.target).map Instance.isDeployed).getD false then
    forEachWallet c.name (readAs host c args) c.wallets
  else
    let note := "contract instance " ++ catalogue.label c.target ++ " is not deployed yet"
    return [{ command := c.name, result := fail .resolution note }]

end Runbook.Session
