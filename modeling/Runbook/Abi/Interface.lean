import Runbook.Abi.Type
import Runbook.Digest.Keccak
import Runbook.Json.Basic

/-!
This module contains the interfaces of contracts: their functions and constructors, and the reading
of interfaces from JSON.
-/

namespace Runbook.Abi

/--
A parameter or an output. The components are those of a tuple.
-/
structure Parameter where
  name : String
  type : String
  components : List Parameter
deriving Repr, Inhabited

namespace Parameter

mutual

def signature : Parameter → String
  | ⟨_, type, components⟩ =>
    if components.isEmpty then type
    else
      "(" ++ ",".intercalate (signatures components) ++ ")" ++ String.ofList (type.toList.drop 5)

def signatures : List Parameter → List String
  | [] => []
  | p :: ps => p.signature :: signatures ps

end

mutual

def resolve? : Parameter → Option AbiType
  | ⟨_, type, components⟩ => do
    let e ← TypeExpr.parse? type
    if components.isEmpty then e.resolve?
    else return e.wrap (.tuple (← resolveAll? components))

def resolveAll? : List Parameter → Option (List AbiType)
  | [] => some []
  | p :: ps => do return (← p.resolve?) :: (← resolveAll? ps)

end

end Parameter

structure Function where
  name : String
  inputs : List Parameter
  outputs : List Parameter
deriving Repr, Inhabited

namespace Function

def signature (f : Function) : String :=
  f.name ++ "(" ++ ",".intercalate (Parameter.signatures f.inputs) ++ ")"

def selector (f : Function) : Bytes :=
  (Keccak.hash f.signature.toUTF8.toList).take 4

theorem length_selector (f : Function) : f.selector.length = 4 := by
  simp [selector, Keccak.length_hash]

end Function

/--
What can be called on a contract. Functions are sorted by name; those of one name stay in the order
of their declaration.
-/
structure Interface where
  constructor? : Option (List Parameter)
  functions : List Function
deriving Repr, Inhabited

namespace Interface

def empty : Interface :=
  ⟨none, []⟩

def functionsNamed (i : Interface) (name : String) : List Function :=
  i.functions.filter (·.name == name)

/--
A field's text, if it is there; what is there must be a text or null.
-/
def optionalText (fields : List (String × Json)) (name : String) : Option (Option String) := do
  match ← Json.single? fields name with
  | none | some .null => some none
  | some (.string s) => some (some s)
  | some _ => none

def optionalBool (fields : List (String × Json)) (name : String) : Option Bool := do
  match ← Json.single? fields name with
  | none | some .null => some false
  | some (.bool b) => some b
  | some _ => none

mutual

/--
A parameter's name may be missing; one with components is a tuple. Only the inputs of events say
whether they are `indexed`.
-/
def parameter? (indexed : Bool) : Json → Option Parameter
  | .object fields => do
    let name ←
      match ← Json.single? fields "name" with
      | none => some ""
      | some (.string s) => some s
      | some _ => none
    let type ← (← Json.single? fields "type").bind Json.string?
    let _ ← optionalText fields "internalType"
    let flag ← Json.single? fields "indexed"
    let components ← components? fields
    if !name.isEmpty && !TypeExpr.isName name then none
    else if !indexed && flag.any (fun j => j matches .bool _) then none
    else if components.isEmpty then
      if (TypeExpr.parse? type).isSome then some ⟨name, type, components⟩ else none
    -- Behind the word there may be marks of arrays.
    else if "tuple".toList.isPrefixOf type.toList then some ⟨name, type, components⟩
    else none
  | _ => none

def components? : List (String × Json) → Option (List Parameter)
  | [] => some []
  | (name, v) :: fields =>
    if name = "components" then
      match v with
      | .array items => parameters? false items
      | _ => none
    else components? fields

def parameters? (indexed : Bool) : List Json → Option (List Parameter)
  | [] => some []
  | j :: js => do return (← parameter? indexed j) :: (← parameters? indexed js)

end

def parameterField? (fields : List (String × Json)) (indexed : Bool) (name : String) :
    Option (List Parameter) := do
  match ← Json.single? fields name with
  | some (.array items) => parameters? indexed items
  | _ => none

def nameField? (fields : List (String × Json)) : Option String := do
  let name ← (← Json.single? fields "name").bind Json.string?
  if name.isEmpty || TypeExpr.isName name then some name else none

def mutability? (fields : List (String × Json)) : Option Unit := do
  let name ← optionalText fields "stateMutability"
  let payable ← optionalBool fields "payable"
  let constant ← optionalBool fields "constant"
  match name with
  | some m => if ["pure", "view", "nonpayable", "payable"].contains m then some () else none
  | none => if payable && constant then none else some ()

inductive Item where
  | constructor (inputs : List Parameter)
  | function (f : Function)
  | fallback
  | receive
  | other

def item? : Json → Option Item
  | .object fields => do
    let kind ← (← Json.single? fields "type").bind Json.string?
    match kind with
    | "constructor" => do
      let inputs ← parameterField? fields false "inputs"
      mutability? fields
      return .constructor inputs
    | "function" => do
      let name ← nameField? fields
      let inputs ← parameterField? fields false "inputs"
      let outputs ← parameterField? fields false "outputs"
      mutability? fields
      return .function ⟨name, inputs, outputs⟩
    | "fallback" => (mutability? fields).map fun _ => .fallback
    | "receive" => (mutability? fields).map fun _ => .receive
    | "event" => do
      let _ ← nameField? fields
      let _ ← parameterField? fields true "inputs"
      return .other
    | "error" => do
      let _ ← nameField? fields
      let _ ← parameterField? fields false "inputs"
      return .other
    | _ => none
  | _ => none

def ofJson? : Json → Option Interface
  | .array js => do
    let items ← js.mapM item?
    let constructors := items.filterMap fun
      | .constructor inputs => some inputs
      | _ => none
    let functions := items.filterMap fun
      | .function f => some f
      | _ => none
    -- A contract has at most one of each of these.
    if 1 < constructors.length ∨ 1 < items.countP (fun i => i matches .fallback)
        ∨ 1 < items.countP (fun i => i matches .receive) then none
    else
      return ⟨constructors.head?, functions.mergeSort fun f g => f.name ≤ g.name⟩
  | _ => none

end Interface

end Runbook.Abi
