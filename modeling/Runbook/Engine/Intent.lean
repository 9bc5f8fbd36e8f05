import Runbook.Abi.Call
import Runbook.Engine.Session

/-!
This module contains the intents of writes: what a write command comes to once its amount is known,
and the transaction that this takes.
-/

namespace Runbook

inductive Intent where
  /-- Send wei to an account. -/
  | transfer (recipient : Address) (value : Nat)
  /-- Create the contract of an instance. -/
  | deploy (id : Nat) (value : Nat)
  /-- Send tokens of an instance. -/
  | tokens (id : Nat) (recipient : Address) (amount : Nat)
  /-- Call a method of an instance. -/
  | method (id : Nat) (name : String) (value : Nat)
deriving Repr, DecidableEq

def Recipient.resolve (ws : Wallets) (args : List String) : Recipient → Result Address
  | address a => pure a
  | wallet name => ws.addressOf name
  | template text =>
    match substituteArgs text args with
    | .error index =>
      fail .resolution ("insufficient arguments: recipient needs $" ++ toString index ++ " but "
        ++ toString args.length ++ " were supplied")
    | .ok text =>
      let text := Text.trim text
      match text.toList with
      | '@' :: name => ws.addressOf (String.ofList name)
      | _ =>
        match Address.parse? text with
        | some a => pure a
        | none => fail .resolution ("recipient '" ++ text ++ "' is not an address")

namespace Plan

def isDeployed (p : Plan) (id : Nat) : Bool :=
  ((p.catalogue.instance? id).map Instance.isDeployed).getD false

def recipientOf (p : Plan) (c : WriteCommand) (args : List String) : Result (Option Address) :=
  match c.recipient with
  | none => pure none
  | some r => (r.resolve p.wallets args).map some

def tokenIntent (p : Plan) (amount : Amount) (recipient : Option Address) : Result Intent :=
  let symbol := amount.denomination.getD ""
  match p.catalogue.findSymbol? symbol with
  | none => fail .resolution ("referenced token contract not found: " ++ symbol)
  | some token =>
    if p.isDeployed token then
      match recipient with
      | some a => pure (.tokens token a amount.value)
      | none => fail .resolution "no transfer recipient address specified"
    else
      fail .resolution ("referenced token contract is not deployed yet: " ++ symbol)

def methodIntent (c : WriteCommand) (value : Nat) : Result Intent :=
  match c.target, c.method with
  | none, _ => fail .resolution "write command has no contract instance to call"
  | some _, none => fail .resolution "write command has no method to call"
  | some id, some method => pure (.method id method value)

/--
What the command comes to. Without an instance it sends wei; an instance that is not deployed yet is
deployed; tokens are sent if the amount counts some; and else a method is called.
-/
def intent (p : Plan) (c : WriteCommand) (args : List String) (amount : Option Amount) :
    Result Intent := do
  let recipient ← p.recipientOf c args
  let tokens := amount.filter Amount.isToken
  let value := ((amount.filter (!·.isToken)).map Amount.value).getD 0
  match tokens, c.target with
  | some amount, _ => p.tokenIntent amount recipient
  | none, some id => if p.isDeployed id then methodIntent c value else return .deploy id value
  | none, none =>
    match amount, recipient with
    | some amount, some a => return .transfer a amount.value
    | _, _ => methodIntent c value

def transferFunction : Abi.Function :=
  { name := "transfer"
    inputs := [⟨"to", "address", []⟩, ⟨"amount", "uint256", []⟩]
    outputs := [⟨"", "bool", []⟩] }

def callPayload (p : Plan) (id : Nat) (data : Bytes) (value : Nat) : Result Payload :=
  match (p.catalogue.instance? id).bind Instance.deployed? with
  | some a => pure { recipient := some a, value, data }
  | none =>
    fail .resolution ("contract instance " ++ p.catalogue.label id ++ " is not deployed yet")

def payload (p : Plan) (c : WriteCommand) (args : List String) (sender : Address) :
    Intent → Result Payload
  | .transfer recipient value => pure { recipient := some recipient, value }
  | .deploy id value => do
    let build ← p.catalogue.buildOf id
    let values ← p.finalize c.name c.params args (some sender)
    return { recipient := none, value,
             data := ← build.interface.deployData build.bytecode values }
  | .tokens id recipient amount => do
    let build ← p.catalogue.buildOf id
    let f := match build.interface.find "transfer" 2 with
      | .ok f => f
      | .error _ => transferFunction
    p.callPayload id (← f.callData [.address recipient, .uint256 amount]) 0
  | .method id name value => do
    let build ← p.catalogue.buildOf id
    let values ← p.finalize c.name c.params args (some sender)
    let f ← build.interface.find name values.length
    p.callPayload id (← f.callData values) value

end Plan

end Runbook
