import Runbook.Json.Basic

/-!
This module contains shorthands for the building of JSON values.
-/

namespace Runbook.Json

variable {α : Type}

def nat (n : Nat) : Json :=
  int n

/--
A number as a decimal text, for numbers that readers may not hold exactly.
-/
def decimal (n : Nat) : Json :=
  string (toString n)

def optional (f : α → Json) : Option α → Json
  | none => null
  | some a => f a

def list (f : α → Json) (as : List α) : Json :=
  array (as.map f)

def texts (ss : List String) : Json :=
  list string ss

end Runbook.Json
