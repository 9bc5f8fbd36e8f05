import Runbook.Display.Pretty
import Runbook.Engine.Intent
import Runbook.Engine.View

/-!
This module contains the running of writes: the transaction of a write is drafted, signed and sent.
-/

namespace Runbook.Session

variable {ω : Type}

def refreshBalance (host : Host ω) (name : String) : Action (Session ω) Unit := do
  let address ← reads (·.wallets.addressOf name)
  let balance : Nat ← (ask host (.balance address)).attach
    ("fetching balance of wallet '" ++ name ++ "'")
  Action.perform (modifyPlan fun p => { p with wallets := p.wallets.setBalance name balance })

def refreshBalances (host : Host ω) : List String → Action (Session ω) Unit
  | [] => return ()
  | name :: names => do
    refreshBalance host name
    refreshBalances host names

def balancesOf (c : WriteCommand) : List String :=
  let named := (c.value.map balanceReferences).getD []
  named.foldl (fun names name => if names.contains name then names else names ++ [name]) [c.wallet]

def gasPrice (host : Host ω) : StateM (Session ω) Nat := do
  let configured := (← get).plan.config.gasPrice
  let suggestion : Result Nat ← (ask host .gasPrice).outcome
  match suggestion with
  | .ok suggested => return if configured < suggested then suggested else configured
  | .error e =>
    write .warn
      ("gas price suggestion failed, using " ++ toString configured ++ ": " ++ e.kind.name)
    return configured

def gasLimit (host : Host ω) (d : Draft) : StateM (Session ω) Nat := do
  let limit := (← get).plan.config.gasLimit
  let estimate : Result Nat ← (ask host (.estimate d)).outcome
  match estimate with
  | .ok estimate => return if estimate < limit then estimate else limit
  | .error e =>
    write .warn ("gas estimation failed, using limit " ++ toString limit ++ ": " ++ e.kind.name)
    return limit

/--
Sign a transaction of the wallet `name`. The key has to be the one of the wallet's address.
-/
def sign (host : Host ω) (name : String) (t : Transaction) :
    Action (Session ω) SignedTransaction := do
  match Entries.find? (← get).plan.wallets name with
  | none => Action.fail .signer ("unknown wallet '" ++ name ++ "'")
  | some w =>
    match ← Action.perform (onTrace (w.signer host.keyring)) with
    | none => Action.fail .signer ("failed to get private key of wallet '" ++ name ++ "'")
    | some key =>
      match t.sign? key with
      | some signed =>
        if signed.sender = w.address then return signed
        else Action.fail .signer "failed to sign transaction"
      | none => Action.fail .signer "failed to sign transaction"

/--
Draft, sign and send a transaction. The answer is its hash as the node tells it, and its nonce.
-/
def submit (host : Host ω) (name : String) (sender : Address) (payload : Payload) (gasPrice : Nat) :
    Action (Session ω) (Hash × Nat) := do
  let nonce ← ask host (.nonce sender)
  let chain := (← get).plan.config.chainId
  let draft : Draft := { sender, nonce, gasPrice, chain, payload }
  let limit ← Action.perform (gasLimit host draft)
  let signed ← sign host name (draft.withGas limit)
  let hash ← (ask host (.send signed)).attach
    ("broadcasting transaction " ++ Hash.text signed.hash)
  return (hash, nonce)

def amountOf (c : WriteCommand) (args : List String) (p : Plan) : Result (Option Amount) :=
  match c.value with
  | none => pure none
  | some text => (Amount.parse p.catalogue.symbols args p.wallets.directory text).map some

def deployed (host : Host ω) (id : Nat) (address : Address) : StateM (Session ω) Unit := do
  let label := (← get).plan.catalogue.label id
  write .info ("contract " ++ label ++ " deployed at " ++ address.text)
  modifyCatalogue (·.setAddress id (some address))
  markProbed id
  fetchSymbol host id

def submitWrite (host : Host ω) (c : WriteCommand) (args : List String) :
    Action (Session ω) Hash := do
  Action.perform (discoverSymbols host)
  let sender ← reads (·.wallets.addressOf c.wallet)
  refreshBalances host (balancesOf c)
  let price ← Action.perform (gasPrice host)
  let amount ← reads (amountOf c args)
  let intent ← reads (·.intent c args amount)
  let payload ← reads (·.payload c args sender intent)
  -- What the plan can refuse, it has refused by now, when nothing has been sent.
  let (hash, nonce) ← submit host c.wallet sender payload price
  note .info ("wallet " ++ c.wallet ++ " submitted transaction " ++ hash.text ++ " (nonce "
    ++ toString nonce ++ ")")
  -- The address is predicted. A receipt may correct it.
  if let .deploy id _ := intent then
    Action.perform (deployed host id (sender.create nonce))
  return hash

def transactionText (hash : Hash) : String :=
  transactionMark ++ hash.text

def runWrite (host : Host ω) (c : WriteCommand) (args : List String) :
    StateM (Session ω) Outcome := do
  match ← (submitWrite host c args).outcome with
  | .ok hash =>
    return { command := c.name, result := .ok (.string (transactionText hash)),
             transaction := some hash }
  | .error e => return { command := c.name, result := .error e }

end Runbook.Session
