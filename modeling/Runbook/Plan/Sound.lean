import Runbook.Plan.Basic
import Runbook.Plan.Contracts
import Runbook.Plan.Inventory
import Runbook.Plan.Names
import Runbook.Wallet.Declared

/-!
This module contains the checking of playbooks. Sections are checked in a fixed order, and each
check sees only what those before it left.
-/

namespace Runbook

variable {ω : Type}

structure Invocation where
  /-- The command or target to run. Without it the playbook is only checked. -/
  name : Option String := none
  args : List String := []
  group : String := "genesis"
deriving Repr, DecidableEq

structure Services (ω : Type) where
  shelf : Shelf
  keyring : Keyring ω
  compiler : Option (Compiler ω) := none
  network : Network ω

namespace Plan

def selectNode (services : Services ω) (d : Document) (i : Invocation) :
    Action (Trace ω) (Option (String × Node ω)) := do
  match i.name with
  | none => return none
  | some _ => return some (← services.network.select d.inventory i.group)

def requireSections (d : Document) : Result Unit :=
  if d.reads.isNone && d.writes.isNone && d.calls.isNone then
    fail .validation "playbook must contain at least one of READ, WRITE or CALL sections"
  else if d.wallets.isNone && (d.writes.isSome || d.calls.isSome) then
    fail .validation
      "playbook must contain the WALLETS section if WRITE or CALL sections are provided"
  else
    pure ()

/--
Check the calls. Each claims its name first.
-/
def addCalls (args : List String) (p : Plan) (names : Names) :
    Entries CallDecl → Result (Plan × Names)
  | [] => pure (p, names)
  | (name, d) :: ds => do
    let names ← names.claim "CALL" name
    let c ← (CallCommand.ofDecl p.wallets args name d).located "CALL" name
    addCalls args { p with calls := p.calls.set name c } names ds

def addReads (args : List String) (p : Plan) (names : Names) :
    Entries ReadDecl → Result (Plan × Names)
  | [] => pure (p, names)
  | (name, d) :: ds => do
    let names ← names.claim "READ" name
    let (c, catalogue) ← (ReadCommand.ofDecl p.wallets args p.catalogue name d).located "READ" name
    addReads args { p with catalogue, reads := p.reads.set name c } names ds

def addWrites (args : List String) (p : Plan) (names : Names) (sticky : Sticky) :
    Entries WriteDecl → Action (Trace ω) (Plan × Names)
  | [] => return (p, names)
  | (name, d) :: ds => do
    let names ← Action.ofResult (names.claim "WRITE" name)
    let (c, catalogue, sticky) ← Action.ofResult
      ((WriteCommand.ofDecl p.wallets args p.catalogue sticky name d).located "WRITE" name)
    Action.perform (Trace.write .info
      ("write command " ++ name ++ " is sent by wallet " ++ c.wallet))
    addWrites args { p with catalogue, writes := p.writes.set name c } names sticky ds

def addTargets (p : Plan) (names : Names) : Entries (List StepDecl) → Result (Plan × Names)
  | [] => pure (p, names)
  | (name, steps) :: ds => do
    let names ← names.claim "TARGETS" name
    let t ← (Target.ofDecl p.kind? name steps).located "TARGETS" name
    addTargets { p with targets := p.targets.set name t } names ds

def requireName (names : Names) : Option String → Result Unit
  | none => pure ()
  | some name =>
    if names.contains name then pure ()
    else fail .validation ("no command or target named '" ++ name ++ "'")

def ofDocument (services : Services ω) (d : Document) (i : Invocation) :
    Action (Trace ω) (Plan × Option (Node ω)) := do
  -- A document with several faults is refused for the first one in this order.
  let config ← Action.ofResult ((Config.ofDecl? d.config).located "CONFIG" "CONFIG")
  let node ← selectNode services d i
  Action.ofResult (requireSections d)
  let wallets ← Wallet.ofDecls services.keyring services.shelf (d.wallets.getD [])
  let catalogue ← Catalogue.ofDecls services.compiler services.shelf (d.contracts.getD [])
  let p : Plan := { config, node := node.map Prod.fst, wallets, catalogue }
  let (p, names) ← Action.ofResult (addCalls i.args p {} (d.calls.getD []))
  let (p, names) ← Action.ofResult (addReads i.args p names (d.reads.getD []))
  let (p, names) ← addWrites i.args p names {} (d.writes.getD [])
  let (p, names) ← Action.ofResult (addTargets p names (d.targets.getD []))
  Action.ofResult (requireName names i.name)
  return (p, node.map Prod.snd)

end Plan

end Runbook
