import Runbook.Document.Basic
import Runbook.Outline.Param

/-!
This module contains the outlines of playbooks as they are written.
-/

namespace Runbook

def Entries.outline {α : Type} (f : α → Json) (es : Entries α) : Json :=
  .list (fun (name, a) => .array [.string name, f a]) es

def ConfigDecl.outline (d : ConfigDecl) : Json :=
  .object [("gas_price", .optional Scalar.outline d.gasPrice),
    ("gas_limit", .optional Scalar.outline d.gasLimit),
    ("chain_id", .optional Scalar.outline d.chainId),
    ("await_timeout", .optional .string d.awaitTimeout)]

def WalletDecl.outline (d : WalletDecl) : Json :=
  .object [("address", .optional .string d.address), ("privkey", .optional .string d.privkey),
    ("password", .optional .string d.password), ("keystore", .optional .string d.keystore),
    ("keyfile", .optional .string d.keyfile)]

def InstanceDecl.outline (d : InstanceDecl) : Json :=
  .array [.optional .string d.name, .optional .string d.address]

def ContractDecl.outline (d : ContractDecl) : Json :=
  .object [("name", .optional .string d.name), ("sol", .optional .string d.sol),
    ("artifact", .optional .string d.artifact), ("optimize", .optional .nat d.optimize),
    ("instances", .list InstanceDecl.outline d.instances)]

def InstanceRef.outline : InstanceRef → Json
  | .named name => .string name
  | .inline contract address =>
    .object [("contract", .string contract), ("address", .optional .string address)]

def CallDecl.outline (d : CallDecl) : Json :=
  .object [("description", .optional .string d.description), ("wallet", .optional .string d.wallet),
    ("method", .string d.method), ("params", .list ParamDecl.outline d.params)]

def ReadDecl.outline (d : ReadDecl) : Json :=
  .object [("description", .optional .string d.description), ("wallet", .optional .string d.wallet),
    ("method", .string d.method), ("params", .list ParamDecl.outline d.params),
    ("instance", .optional InstanceRef.outline d.instanceRef)]

def WriteDecl.outline (d : WriteDecl) : Json :=
  .object [("description", .optional .string d.description), ("wallet", .optional .string d.wallet),
    ("sticky", .optional .string d.sticky), ("method", .optional .string d.method),
    ("params", .list ParamDecl.outline d.params),
    ("instance", .optional InstanceRef.outline d.instanceRef),
    ("value", .optional Scalar.outline d.value), ("to", .optional .string d.recipient)]

def StepDecl.outline : StepDecl → Json
  | .short text => .string text
  | .detailed command args deferred =>
    .object [("command", .string command), ("args", .list Scalar.outline args),
      ("deferred", .bool deferred)]

def Document.outline (d : Document) : Json :=
  .object [("config", .optional ConfigDecl.outline d.config),
    ("inventory", .optional (Entries.outline .texts) d.inventory),
    ("wallets", .optional (Entries.outline WalletDecl.outline) d.wallets),
    ("contracts", .optional (Entries.outline ContractDecl.outline) d.contracts),
    ("call", .optional (Entries.outline CallDecl.outline) d.calls),
    ("read", .optional (Entries.outline ReadDecl.outline) d.reads),
    ("write", .optional (Entries.outline WriteDecl.outline) d.writes),
    ("targets", .optional (Entries.outline (.list StepDecl.outline)) d.targets)]

end Runbook
