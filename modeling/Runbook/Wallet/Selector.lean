import Runbook.Fault
import Runbook.Pattern.Reader

/-!
This module contains wallet selectors: regular expressions that a wallet's whole name has to match.
-/

namespace Runbook

structure Selector where
  pattern : Pattern
deriving Repr

namespace Selector

/--
The regular expression around a selector. The empty selector is one for every name.
-/
def expression (text : String) : String :=
  if text.isEmpty then ".*" else "^(?:" ++ text ++ ")$"

def parse (text : String) : Result Selector :=
  match Pattern.parse? (expression text) with
  | some pattern => pure ⟨pattern⟩
  | none => fail .validation ("wallet selector '" ++ text ++ "' is not a valid regex")

def accepts (s : Selector) (name : String) : Bool :=
  s.pattern.occursIn name

def matching (s : Selector) (names : List String) : List String :=
  names.filter s.accepts

end Selector

end Runbook
