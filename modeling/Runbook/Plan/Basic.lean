import Runbook.Plan.Command
import Runbook.Plan.Config

/-!
This module contains plans: playbooks that were found sound.
-/

namespace Runbook

structure Plan where
  config : Config := {}
  /-- The URL of the node that was chosen. -/
  node : Option String := none
  wallets : Wallets := []
  catalogue : Catalogue := {}
  calls : Entries CallCommand := []
  reads : Entries ReadCommand := []
  writes : Entries WriteCommand := []
  targets : Entries Target := []

namespace Plan

def kind? (p : Plan) (name : String) : Option CommandKind :=
  if p.calls.contains name then some .call
  else if p.reads.contains name then some .read
  else if p.writes.contains name then some .write
  else none

def commandIndices (p : Plan) (name : String) : List Nat :=
  match p.calls.find? name, p.reads.find? name, p.writes.find? name with
  | some c, _, _ => c.argIndices
  | none, some c, _ => c.argIndices
  | none, none, some c => c.argIndices
  | none, none, none => []

def arity? (p : Plan) (name : String) : Option Nat :=
  match p.targets.find? name with
  | some t => some (arity (t.argIndices p.commandIndices))
  | none => (p.kind? name).map fun _ => arity (p.commandIndices name)

structure Entry where
  name : String
  /-- None for a target. -/
  kind : Option CommandKind
  arity : Nat
  description : Option String
deriving Repr, DecidableEq

def entries (p : Plan) : List Entry :=
  let entry (kind : Option CommandKind) (name : String) (description : Option String) : Entry :=
    { name, kind, arity := (p.arity? name).getD 0, description }
  (p.calls.map fun (name, c) => entry (some .call) name c.description)
    ++ (p.reads.map fun (name, c) => entry (some .read) name c.description)
    ++ (p.writes.map fun (name, c) => entry (some .write) name c.description)
    ++ p.targets.map fun (name, _) => entry none name none

end Plan

end Runbook
