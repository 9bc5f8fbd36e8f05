import Runbook.Entries
import Runbook.Param.Slot

/-!
This module contains playbooks as they are written down, before anything in them is checked.
-/

namespace Runbook

structure ConfigDecl where
  gasPrice : Option Scalar := none
  gasLimit : Option Scalar := none
  chainId : Option Scalar := none
  awaitTimeout : Option String := none
deriving Repr, DecidableEq

structure WalletDecl where
  address : Option String := none
  privkey : Option String := none
  password : Option String := none
  keystore : Option String := none
  keyfile : Option String := none
deriving Repr, DecidableEq

structure InstanceDecl where
  name : Option String := none
  address : Option String := none
deriving Repr, DecidableEq

/--
A contract is loaded from an artifact or compiled from a Solidity source. Its name in the source is
that of its entry unless `name` is given.
-/
structure ContractDecl where
  name : Option String := none
  sol : Option String := none
  artifact : Option String := none
  /-- The number of runs that the compiler optimizes for. -/
  optimize : Option Nat := none
  instances : List InstanceDecl := []
deriving Repr, DecidableEq

inductive InstanceRef where
  | named (name : String)
  | inline (contract : String) (address : Option String)
deriving Repr, DecidableEq

structure CallDecl where
  description : Option String := none
  wallet : Option String := none
  method : String
  params : List ParamDecl := []
deriving Repr, DecidableEq

structure ReadDecl where
  description : Option String := none
  wallet : Option String := none
  method : String
  params : List ParamDecl := []
  instanceRef : Option InstanceRef := none
deriving Repr, DecidableEq

structure WriteDecl where
  description : Option String := none
  wallet : Option String := none
  sticky : Option String := none
  method : Option String := none
  params : List ParamDecl := []
  instanceRef : Option InstanceRef := none
  value : Option Scalar := none
  recipient : Option String := none
deriving Repr, DecidableEq

inductive StepDecl where
  | short (text : String)
  | detailed (command : String) (args : List Scalar) (deferred : Bool)
deriving Repr, DecidableEq

/--
A playbook document. A section may be missing, which is not the same as an empty one.
-/
structure Document where
  config : Option ConfigDecl := none
  inventory : Option (Entries (List String)) := none
  wallets : Option (Entries WalletDecl) := none
  contracts : Option (Entries ContractDecl) := none
  targets : Option (Entries (List StepDecl)) := none
  calls : Option (Entries CallDecl) := none
  reads : Option (Entries ReadDecl) := none
  writes : Option (Entries WriteDecl) := none
deriving Repr, DecidableEq

/--
A setting's text without the blanks around it. One that is empty then counts as missing.
-/
def setting (text? : Option String) : Option String :=
  (text?.map Text.trim).filter (!·.isEmpty)

end Runbook
