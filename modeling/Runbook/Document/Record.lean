import Runbook.Scalar
import Runbook.Yaml.Resolve

/-!
This module contains the reading of records, lists and texts from YAML nodes.

A node is read in one of two manners. Where the schema fixes what stands there, any scalar is a
text. Where it leaves a choice of forms, the node is first taken by what its scalars stand for, and
only those that stand for texts are texts.
-/

namespace Runbook

inductive Manner where
  | fixed
  | chosen
deriving Repr, DecidableEq

namespace Yaml.Node

mutual

/--
Whether a choice of forms can be read from the node: nothing in it has a tag of its own or is a
number of more than 64 bits.
-/
def isPlainData : Node → Bool
  | scalar text style tag => (resolve? text style tag).isSome
  | seq items tag => !isLocalTag tag && allPlainData items
  | map pairs tag => !isLocalTag tag && pairsPlainData pairs

def allPlainData : List Node → Bool
  | [] => true
  | n :: ns => n.isPlainData && allPlainData ns

def pairsPlainData : List (Node × Node) → Bool
  | [] => true
  | (k, v) :: ps => k.isPlainData && v.isPlainData && pairsPlainData ps

end

def resolved? : Node → Option Resolved
  | scalar text style tag => resolve? text style tag
  | _ => none

def text? (m : Manner) (n : Node) : Option String :=
  match m, n with
  | .fixed, scalar text _ _ => some text
  | .chosen, n =>
    match n.resolved? with
    | some (.text s) => some s
    | _ => none
  | _, _ => none

def optional? {α : Type} (m : Manner) (read : Node → Option α) (n : Node) : Option (Option α) :=
  match m, n with
  | .fixed, scalar text .plain none =>
    if text.isEmpty || isNull text then some none else (read n).map some
  | .fixed, scalar text .plain (some tag) =>
    if tag = standardTag "null" then (if isNull text then some none else none)
    else (read n).map some
  | .fixed, n => (read n).map some
  | .chosen, n => if n.resolved? = some .null then some none else (read n).map some

def isLeftOut (m : Manner) : Node → Bool
  | scalar text .plain _ => m = .fixed && text.isEmpty
  | _ => false

def list? {α : Type} (m : Manner) (read : Node → Option α) (n : Node) : Option (List α) :=
  match n with
  | seq items _ => items.mapM read
  | n => if n.isLeftOut m then some [] else none

/--
Named entries. A name that stands twice keeps its first place and its last value.
-/
def entries? {α : Type} (read : Node → Option α) (n : Node) : Option (Entries α) :=
  match n with
  | map pairs _ => do
    let entries ← pairs.mapM fun (k, v) => do return (← k.text? .fixed, ← read v)
    return entries.foldl (fun es (name, v) => es.set name v) []
  | n => if n.isLeftOut .fixed then some [] else none

end Yaml.Node

structure Schema where
  fields : List (List String)
  closed : Bool

namespace Schema

def index? (s : Schema) (name : String) : Option Nat :=
  s.fields.findIdx? fun names => names.contains name

/--
The field that a key stands for: by its name, or in a chosen form also by its number. None is an
unknown field.
-/
def key? (s : Schema) (m : Manner) (k : Yaml.Node) : Option (Option Nat) :=
  match m with
  | .fixed => (k.text? .fixed).map s.index?
  | .chosen =>
    match k.resolved? with
    | some (.text name) => some (s.index? name)
    | some (.int n) =>
      if n < 0 then none else some (if n.toNat < s.fields.length then some n.toNat else none)
    | _ => none

/--
The nodes of the fields, in order of the schema. No field stands twice.
-/
def ofPairs? (s : Schema) (m : Manner) :
    List (Yaml.Node × Yaml.Node) → Option (List (Option Yaml.Node))
  | [] => some (s.fields.map fun _ => none)
  | (k, v) :: pairs => do
    let nodes ← ofPairs? s m pairs
    match ← s.key? m k with
    | none => if s.closed then none else return nodes
    | some i => if (nodes[i]?.join).isSome then none else return nodes.set i (some v)

def nodes? (s : Schema) (m : Manner) (n : Yaml.Node) : Option (List (Option Yaml.Node)) :=
  match n with
  | .map pairs _ => s.ofPairs? m pairs
  | .seq items _ =>
    if items.length ≤ s.fields.length then
      some (items.map some ++ (s.fields.drop items.length).map fun _ => none)
    else none
  | n => if n.isLeftOut m then some (s.fields.map fun _ => none) else none

end Schema

structure Record where
  manner : Manner
  schema : Schema
  nodes : List (Option Yaml.Node)

namespace Record

def ofNode? (m : Manner) (closed : Bool) (fields : List (List String)) (n : Yaml.Node) :
    Option Record :=
  let schema : Schema := ⟨fields, closed⟩
  (schema.nodes? m n).map fun nodes => ⟨m, schema, nodes⟩

def node? (r : Record) (name : String) : Option Yaml.Node :=
  ((r.schema.index? name).bind fun i => r.nodes[i]?).join

def required {α : Type} (r : Record) (name : String) (read : Yaml.Node → Option α) : Option α :=
  (r.node? name).bind read

def optional {α : Type} (r : Record) (name : String) (read : Yaml.Node → Option α) :
    Option (Option α) :=
  match r.node? name with
  | some n => n.optional? r.manner read
  | none => some none

def withDefault {α : Type} (r : Record) (name : String) (default : α)
    (read : Yaml.Node → Option α) :
    Option α :=
  match r.node? name with
  | some n => read n
  | none => some default

def text (r : Record) (name : String) : Option (Option String) :=
  r.optional name (Yaml.Node.text? r.manner)

end Record

end Runbook
