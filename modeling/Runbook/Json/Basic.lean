import Runbook.Number.Binary64

/-!
This module contains JSON values.
-/

namespace Runbook

/--
A JSON value. An object keeps its fields in order; whole numbers of up to 64 bits are exact.
-/
inductive Json where
  | null
  | bool (b : Bool)
  | int (n : Int)
  | float (x : Number.Binary64)
  | string (s : String)
  | array (items : List Json)
  | object (fields : List (String × Json))
deriving Repr, Inhabited

namespace Json

def field? (j : Json) (name : String) : Option Json :=
  match j with
  | object fields => fields.lookup name
  | _ => none

def string? : Json → Option String
  | string s => some s
  | _ => none

def nat? (bound : Nat) : Json → Option Nat
  | int n => if 0 ≤ n ∧ n < bound then some n.toNat else none
  | _ => none

def single? (fields : List (String × Json)) (name : String) : Option (Option Json) :=
  match fields.filter (·.1 == name) with
  | [] => some none
  | [(_, v)] => some (some v)
  | _ => none

/--
The fields of a record with the given names: those of an object, each of which stands at most once,
or an array's items in order. An object may hold further fields.
-/
def record? (names : List String) : Json → Option (List (String × Json))
  | object fields =>
    let known := fields.filter fun (name, _) => names.contains name
    if (known.map Prod.fst).Nodup then some known else none
  | array items => if items.length ≤ names.length then some (names.zip items) else none
  | _ => none

end Json

end Runbook
