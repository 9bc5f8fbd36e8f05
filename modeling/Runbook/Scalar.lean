import Runbook.Number.Binary64

/-!
This module contains the scalars of a playbook.
-/

namespace Runbook

inductive Scalar where
  | bool (b : Bool)
  | int (n : Int)
  | float (x : Number.Binary64)
  | string (s : String)
deriving Repr, DecidableEq

def Scalar.text : Scalar → String
  | bool b => toString b
  | int n => toString n
  | float x => x.text
  | string s => s

end Runbook
