import Runbook.Entries
import Runbook.Json.Writer
import Runbook.Node.Trace

/-!
This module contains the choice of the node that a playbook runs against.
-/

namespace Runbook

variable {ω : Type}

structure Network (ω : Type) where
  connect : (url : String) → ω → Result (Node ω) × ω

namespace Network

def firstLive (network : Network ω) : List String → StateM (Trace ω) (Option (String × Node ω))
  | [] => return none
  | url :: urls => do
    match ← Trace.outside (network.connect url) with
    | .error _ =>
      Trace.write .warn ("failed to open node " ++ url)
      firstLive network urls
    | .ok node =>
      match ← (Trace.ask node (.rpc "net_version" [])).outcome with
      | .error _ =>
        Trace.write .warn ("node " ++ url ++ " is not responding")
        firstLive network urls
      | .ok version =>
        Trace.write .info ("using node " ++ url ++ " (network " ++ Json.write version ++ ")")
        return some (url, node)

/--
A live node of a group. Nodes of other groups are left alone.
-/
def select (network : Network ω) (inventory : Option (Entries (List String))) (group : String) :
    Action (Trace ω) (String × Node ω) := do
  match inventory with
  | none => Action.fail .validation "playbook must contain INVENTORY section"
  | some groups =>
    match groups.find? group with
    | none =>
      (Action.fail .validation ("node group '" ++ group ++ "' is not declared")).located
        "INVENTORY" group
    | some urls =>
      match ← Action.perform (firstLive network urls) with
      | some live => return live
      | none =>
        (Action.fail .validation ("no live nodes found in group '" ++ group ++ "'")).located
          "INVENTORY" group

end Network

end Runbook
