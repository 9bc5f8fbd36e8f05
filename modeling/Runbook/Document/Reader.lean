import Runbook.Document.Basic
import Runbook.Document.Record

/-!
This module contains the reading of playbook documents.
-/

namespace Runbook

def Scalar.ofResolved? : Yaml.Resolved → Option Scalar
  | .null => none
  | .bool b => some (bool b)
  | .int n => some (int n)
  | .float x => some (float x)
  | .text s => some (string s)

def Scalar.ofNode? (n : Yaml.Node) : Option Scalar :=
  n.resolved?.bind Scalar.ofResolved?

def TypedParam.ofNode? (n : Yaml.Node) : Option TypedParam := do
  let r ← Record.ofNode? .chosen true [["type"], ["value"], ["reference"]] n
  return {
    type := ← r.text "type"
    value := ← r.optional "value" Scalar.ofNode?
    reference := ← r.text "reference" }

def ParamDecl.ofNode? (n : Yaml.Node) : Option ParamDecl :=
  if n.isPlainData then
    match TypedParam.ofNode? n with
    | some p => some (.typed p)
    | none => (Scalar.ofNode? n).map .plain
  else none

def InstanceRef.ofNode? (n : Yaml.Node) : Option InstanceRef :=
  if n.isPlainData then
    match n.text? .chosen with
    | some name => some (.named name)
    | none => do
      let r ← Record.ofNode? .chosen true [["contract"], ["address"]] n
      return .inline (← r.required "contract" (Yaml.Node.text? .chosen)) (← r.text "address")
  else none

/--
A step is a text, or a map that may hold more than is known here.
-/
def StepDecl.ofNode? (n : Yaml.Node) : Option StepDecl :=
  if n.isPlainData then
    match n with
    | .map _ _ => do
      let r ← Record.ofNode? .chosen false [["command"], ["args"], ["deferred"]] n
      return .detailed (← r.required "command" (Yaml.Node.text? .chosen))
        (← r.withDefault "args" [] (Yaml.Node.list? .chosen Scalar.ofNode?))
        (← r.withDefault "deferred" false fun d =>
          match d.resolved? with
          | some (.bool b) => some b
          | _ => none)
    | n => (n.text? .chosen).map .short
  else none

def ConfigDecl.ofNode? (n : Yaml.Node) : Option ConfigDecl := do
  let r ← Record.ofNode? .fixed true
    [["gasPrice"], ["gasLimit"], ["chainID", "chainId"], ["awaitTimeout"]] n
  return {
    gasPrice := ← r.optional "gasPrice" Scalar.ofNode?
    gasLimit := ← r.optional "gasLimit" Scalar.ofNode?
    chainId := ← r.optional "chainID" Scalar.ofNode?
    awaitTimeout := ← r.text "awaitTimeout" }

def WalletDecl.ofNode? (n : Yaml.Node) : Option WalletDecl := do
  let r ← Record.ofNode? .fixed true
    [["address"], ["privkey"], ["password"], ["keystore"], ["keyfile"]] n
  return {
    address := ← r.text "address"
    privkey := ← r.text "privkey"
    password := ← r.text "password"
    keystore := ← r.text "keystore"
    keyfile := ← r.text "keyfile" }

def InstanceDecl.ofNode? (n : Yaml.Node) : Option InstanceDecl := do
  let r ← Record.ofNode? .fixed true [["name"], ["address"]] n
  return { name := ← r.text "name", address := ← r.text "address" }

/--
A count of up to 32 bits. Only a plain scalar is one, and a literal block that is tagged as an
integer.
-/
def count? : Yaml.Node → Option Nat
  | .scalar text style tag =>
    if style = .plain ∨ style = .literal ∧ tag = some (Yaml.standardTag "int") then
      match Yaml.int? text with
      | some (.ofNat n) => if n < 2 ^ 32 && !text.startsWith "-" then some n else none
      | _ => none
    else none
  | _ => none

def ContractDecl.ofNode? (n : Yaml.Node) : Option ContractDecl := do
  let r ← Record.ofNode? .fixed true
    [["name"], ["sol"], ["artifact"], ["optimize"], ["instances"]] n
  return {
    name := ← r.text "name"
    sol := ← r.text "sol"
    artifact := ← r.text "artifact"
    optimize := ← r.optional "optimize" count?
    instances := ← r.withDefault "instances" [] (Yaml.Node.list? .fixed InstanceDecl.ofNode?) }

def Record.params (r : Record) : Option (List ParamDecl) :=
  r.withDefault "params" [] (Yaml.Node.list? .fixed ParamDecl.ofNode?)

def CallDecl.ofNode? (n : Yaml.Node) : Option CallDecl := do
  let r ← Record.ofNode? .fixed true [["description"], ["wallet"], ["method"], ["params"]] n
  return {
    description := ← r.text "description"
    wallet := ← r.text "wallet"
    method := ← r.required "method" (Yaml.Node.text? .fixed)
    params := ← r.params }

def ReadDecl.ofNode? (n : Yaml.Node) : Option ReadDecl := do
  let r ← Record.ofNode? .fixed true
    [["description"], ["wallet"], ["method"], ["params"], ["instance"]] n
  return {
    description := ← r.text "description"
    wallet := ← r.text "wallet"
    method := ← r.required "method" (Yaml.Node.text? .fixed)
    params := ← r.params
    instanceRef := ← r.optional "instance" InstanceRef.ofNode? }

def WriteDecl.ofNode? (n : Yaml.Node) : Option WriteDecl := do
  let r ← Record.ofNode? .fixed true
    [["description"], ["wallet"], ["sticky"], ["method"], ["params"], ["instance"], ["value"],
      ["to"]] n
  return {
    description := ← r.text "description"
    wallet := ← r.text "wallet"
    sticky := ← r.text "sticky"
    method := ← r.text "method"
    params := ← r.params
    instanceRef := ← r.optional "instance" InstanceRef.ofNode?
    value := ← r.optional "value" Scalar.ofNode?
    recipient := ← r.text "to" }

namespace Document

def sectionOf {α : Type} (r : Record) (name : String) (read : Yaml.Node → Option α) :
    Option (Option (Entries α)) :=
  r.optional name (Yaml.Node.entries? read)

def ofNode? (n : Yaml.Node) : Option Document := do
  let r ← Record.ofNode? .fixed false
    [["CONFIG"], ["INVENTORY"], ["WALLETS"], ["CONTRACTS"], ["TARGETS"], ["CALL"], ["READ", "VIEW"],
      ["WRITE"]] n
  return {
    config := ← r.optional "CONFIG" ConfigDecl.ofNode?
    inventory := ← sectionOf r "INVENTORY" (Yaml.Node.list? .fixed (Yaml.Node.text? .fixed))
    wallets := ← sectionOf r "WALLETS" WalletDecl.ofNode?
    contracts := ← sectionOf r "CONTRACTS" ContractDecl.ofNode?
    targets := ← sectionOf r "TARGETS" (Yaml.Node.list? .fixed StepDecl.ofNode?)
    calls := ← sectionOf r "CALL" CallDecl.ofNode?
    reads := ← sectionOf r "READ" ReadDecl.ofNode?
    writes := ← sectionOf r "WRITE" WriteDecl.ofNode? }

def parse? (text : String) : Option Document := do
  match ← Yaml.document? text with
  | some n => ofNode? n
  | none => return {}

/--
The document that a text writes. A text without a document is an empty one.
-/
def parse (text : String) : Result Document :=
  match parse? text with
  | some d => pure d
  | none => fail .validation "unable to parse playbook"

end Document

end Runbook
