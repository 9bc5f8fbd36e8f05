import Runbook.Proofs.Param.Resolved
import Runbook.Proofs.Plan.Commands

/-!
This module contains the parameters that stand for the wallet that sends a command: they have its
address as their value, and no other parameter depends on who sends.
-/

namespace Runbook

section Values

variable {scope : Scope} {a : Address}

end Values

section Resolving

variable {scope : Scope} {args : List String} {type : ParamType} {text : String} {r : Resolution}

end Resolving

section Declarations

variable {scope scope₀ : Scope} {args : List String} {p : TypedParam} {type : ParamType}
  {r : Resolution}

end Declarations

namespace Slot

variable {s : Slot} {scope : Scope} {a : Address}

end Slot

end Runbook
