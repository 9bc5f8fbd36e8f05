import Runbook.Outline.Param
import Runbook.Plan.Basic

/-!
This module contains the outlines of plans. Private keys show as the addresses that they sign for.
-/

namespace Runbook

def Config.outline (c : Config) : Json :=
  .object [("gas_price", .decimal c.gasPrice), ("gas_limit", .decimal c.gasLimit),
    ("chain_id", .decimal c.chainId),
    ("await_timeout", .array [.decimal c.awaitTimeout.seconds, .nat c.awaitTimeout.subsecond])]

def Address.outline (a : Address) : Json :=
  .string a.text

def Path.outline (p : Path) : Json :=
  .string p.text

def Credential.outline : Credential → Json
  | .embedded key => .object [("embedded", key.address.outline)]
  | .keyfile path => .object [("keyfile", path.outline)]

def Wallet.outline (name : String) (w : Wallet) : Json :=
  .object [("name", .string name), ("address", w.address.outline),
    ("password", .optional .string w.password), ("keystore", .optional Path.outline w.keystore),
    ("keyfile", .optional Path.outline w.keyfile), ("credential", w.credential.outline)]

def Abi.Interface.outline (i : Abi.Interface) : Json :=
  .object [
    ("constructor", .optional (.list fun p : Abi.Parameter => .string p.type) i.constructor?),
    ("functions", .list (fun f : Abi.Function => .string f.signature) i.functions)]

def Build.outline (name : String) (b : Build) : Json :=
  .array [.string name, .string (Text.hexPrefixed b.bytecode), b.interface.outline]

def Instance.outline (i : Instance) : Json :=
  .object [("label", .string i.label), ("contract", .string i.contract),
    ("address", .optional Address.outline i.address), ("deployed", .bool i.isDeployed),
    ("symbol", .optional .string i.symbol)]

def Catalogue.outlineOf (c : Catalogue) (id : Nat) : Json :=
  .array [.nat id, .string (((c.instance? id).map Instance.label).getD "")]

def Catalogue.buildOutline (c : Catalogue) (name : String) : Json :=
  .optional (Build.outline name) (c.builds.find? name)

def CallCommand.outline (c : CallCommand) : Json :=
  .object [("name", .string c.name), ("wallets", .texts c.wallets), ("method", .string c.method),
    ("params", .list Slot.outline c.params), ("arg_count", .nat (arity c.argIndices))]

def ReadCommand.outline (catalogue : Catalogue) (c : ReadCommand) : Json :=
  .object [("name", .string c.name), ("wallets", .texts c.wallets), ("method", .string c.method),
    ("params", .list Slot.outline c.params), ("arg_count", .nat (arity c.argIndices)),
    ("instance", catalogue.outlineOf c.target)]

def Recipient.outline : Recipient → Json
  | .address a => .object [("address", a.outline)]
  | .wallet name => .object [("wallet", .string name)]
  | .template text => .object [("template", .string text)]

def WriteCommand.outline (catalogue : Catalogue) (c : WriteCommand) : Json :=
  .object [("name", .string c.name), ("wallet", .string c.wallet), ("sticky", .string c.stickyKey),
    ("method", .optional .string c.method), ("params", .list Slot.outline c.params),
    ("instance", .optional catalogue.outlineOf c.target), ("value", .optional .string c.value),
    ("to", .optional Recipient.outline c.recipient), ("arg_count", .nat (arity c.argIndices))]

def Step.outline (s : Step) : Json :=
  .object [("command", .string s.command), ("kind", .string s.kind.text),
    ("deferred", .bool s.deferred), ("args", .optional .texts s.args)]

namespace Plan

def Entry.outline (e : Entry) : Json :=
  .array [.string e.name, .string ((e.kind.map CommandKind.text).getD "target"), .nat e.arity,
    .optional .string e.description]

def nameOutline (p : Plan) (name : String) : Json :=
  .array [.string name, .optional (fun k : CommandKind => .string k.text) (p.kind? name),
    .optional .nat (p.arity? name), .list .nat (p.commandIndices name)]

def outlineFields (p : Plan) : List (String × Json) :=
  [("config", p.config.outline), ("node", .optional .string p.node),
    ("wallets", .list (fun (name, w) => Wallet.outline name w) p.wallets),
    ("instances", .list Instance.outline p.catalogue.instances),
    ("contracts",
      .list (fun i : Instance => p.catalogue.buildOutline i.contract) p.catalogue.instances),
    ("call", .list (fun (_, c) => CallCommand.outline c) p.calls),
    ("read", .list (fun (_, c) => ReadCommand.outline p.catalogue c) p.reads),
    ("write", .list (fun (_, c) => WriteCommand.outline p.catalogue c) p.writes),
    ("targets",
      .list (fun (name, t) => .array [.string name, .list Step.outline t.steps]) p.targets),
    ("entries", .list Entry.outline p.entries)]

def stateOutline (p : Plan) : Json :=
  .object [("instances", .list Instance.outline p.catalogue.instances),
    ("balances", .list (fun (name, w) =>
      .array [.string name, .optional .decimal (Wallet.balance w)]) p.wallets)]

end Plan

end Runbook
