import Runbook.Amount
import Runbook.Contract.Catalogue
import Runbook.Plan.Target
import Runbook.Wallet.Basic
import Runbook.Wallet.Selector
import Runbook.Wallet.Sticky

/-!
This module contains commands: calls of node methods, reads of contracts and writes, as they are
once everything about them that does not hang on arguments is checked.
-/

namespace Runbook

structure CallCommand where
  name : String
  description : Option String
  wallets : List String
  method : String
  params : List Slot

structure ReadCommand where
  name : String
  description : Option String
  wallets : List String
  method : String
  params : List Slot
  target : Nat

inductive Recipient where
  | address (a : Address)
  | wallet (name : String)
  /-- A text with tokens for arguments. -/
  | template (text : String)
deriving Repr, DecidableEq

structure WriteCommand where
  name : String
  description : Option String
  wallet : String
  stickyKey : String
  method : Option String
  params : List Slot
  target : Option Nat
  value : Option String
  recipient : Option Recipient

def resolveParams (scope : Scope) (index : Nat) : List ParamDecl → Result (List Slot)
  | [] => pure []
  | d :: ds => do
    let resolution ← Result.attach
      ("param #" ++ toString index ++ " of command '" ++ scope.command ++ "'") (d.resolve scope)
    return ⟨d, resolution⟩ :: (← resolveParams scope (index + 1) ds)

def declScope (ws : Wallets) (args : List String) (command : String) : Scope :=
  { command, args, wallets := ws.directory, sender := none }

/--
A wallet selector is a pattern for names. A wallet reference is none.
-/
def refuseReference (selector : String) : Result Unit :=
  if isWalletRef selector then
    fail .validation ("wallet selector '" ++ selector
      ++ "' must be a name pattern, not a wallet reference")
  else
    pure ()

/--
The wallets that a command goes through. A selector that is given has to match some.
-/
def selectWallets (ws : Wallets) (selector : String) : Result (List String) := do
  let matched := (← Selector.parse selector).matching (Entries.names ws)
  if !selector.isEmpty && matched.isEmpty then
    fail .validation ("no wallet matches selector '" ++ selector ++ "'")
  else
    return matched

def requireMethod (c : Catalogue) (id : Nat) (method : String) : Result Unit := do
  let build ← c.buildOf id
  if (build.interface.functionsNamed method).isEmpty then
    let contract := ((c.instance? id).map Instance.contract).getD ""
    let available := build.interface.functions.map Abi.Function.name
    fail .validation ("contract " ++ contract ++ " has no method '" ++ method ++ "' (available: "
      ++ ", ".intercalate available ++ ")")
  else
    return ()

namespace CallCommand

def ofDecl (ws : Wallets) (args : List String) (name : String) (d : CallDecl) :
    Result CallCommand := do
  let selector := d.wallet.getD ""
  refuseReference selector
  let wallets ← selectWallets ws selector
  if (Text.trim d.method).isEmpty then fail .validation "method is required"
  else
    let params ← resolveParams (declScope ws args name) 0 d.params
    return { name, description := d.description, wallets, method := d.method, params }

def argIndices (c : CallCommand) : List Nat :=
  c.params.flatMap Slot.argIndices

end CallCommand

namespace ReadCommand

def ofDecl (ws : Wallets) (args : List String) (c : Catalogue) (name : String) (d : ReadDecl) :
    Result (ReadCommand × Catalogue) := do
  let wallets ← selectWallets ws (d.wallet.getD "")
  match d.instanceRef with
  | none => fail .validation "instance is required"
  | some ref =>
    let (target, c) ← c.bind ref
    requireMethod c target d.method
    let params ← resolveParams (declScope ws args name) 0 d.params
    return ({ name, description := d.description, wallets, method := d.method, params, target }, c)

def argIndices (c : ReadCommand) : List Nat :=
  c.params.flatMap Slot.argIndices

end ReadCommand

def Recipient.parse (wallets : Directory) (text : String) : Result Recipient :=
  if isWalletRef text then do
    match ← WalletRef.parse text with
    | .field owner .address =>
      if wallets.contains owner then return .wallet owner
      else fail .validation ("field to references unknown wallet '" ++ owner ++ "'")
    | _ => fail .validation ("field to must name a wallet address, got '" ++ text ++ "'")
  else if !(Runbook.argIndices text).isEmpty then pure (.template text)
  else
    match Address.parse? text with
    | some a => pure (.address a)
    | none => fail .validation ("field to '" ++ text ++ "' is not an address")

namespace WriteCommand

/--
The recipient of a declaration. An empty one is none.
-/
def recipientOf (wallets : Directory) (text? : Option String) : Result (Option Recipient) :=
  match setting text? with
  | none => pure none
  | some text => (Recipient.parse wallets text).map some

def bindTarget (c : Catalogue) : Option InstanceRef → Result (Option Nat × Catalogue)
  | none => pure (none, c)
  | some ref => do
    let (id, c) ← c.bind ref
    return (some id, c)

def ofDecl (ws : Wallets) (args : List String) (c : Catalogue) (sticky : Sticky) (name : String)
    (d : WriteDecl) : Result (WriteCommand × Catalogue × Sticky) := do
  let selector := Text.trim (d.wallet.getD "")
  if selector.isEmpty then
    fail .validation "write commands need an explicit wallet selector"
  refuseReference selector
  let matched := (← Selector.parse selector).matching (Entries.names ws)
  let stickyKey := d.sticky.getD name
  -- Commands with one key keep to one wallet.
  let (wallet, sticky) ← Result.attach ("selector '" ++ selector ++ "'")
    (sticky.select stickyKey matched)
  let (target, c) ← bindTarget c d.instanceRef
  let method := d.method.filter fun m => !(Text.trim m).isEmpty
  -- Without an instance nothing tells which methods there are.
  if let (some id, some m) := (target, method) then
    requireMethod c id m
  let value := d.value.map Scalar.text
  if let some text := value then
    checkValueReferences ws.directory text
  let recipient ← recipientOf ws.directory d.recipient
  if target.isNone && (value.isNone || recipient.isNone) then
    fail .validation "write command needs a contract instance, or both value and to"
  let params ← resolveParams (declScope ws args name) 0 d.params
  return ({ name, description := d.description, wallet, stickyKey, method, params, target, value,
            recipient }, c, sticky)

def argIndices (c : WriteCommand) : List Nat :=
  c.params.flatMap Slot.argIndices ++ (c.value.map Runbook.argIndices).getD []
    ++ match c.recipient with
      | some (.template text) => Runbook.argIndices text
      | _ => []

end WriteCommand

end Runbook
