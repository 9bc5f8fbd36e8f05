import Runbook.Json.Build
import Runbook.Param.Slot

/-!
This module contains the outlines of parameters and their values: JSON forms for people and tools to
look at.
-/

namespace Runbook

def Value.outline (v : Value) : Json :=
  .object [("type", .string v.type.text), ("text", .string v.text), ("json", v.json)]

def WalletRef.outline : WalletRef → Json
  | .sender => .string "placeholder"
  | .field owner name => .object [("wallet", .string owner), ("field", .string name.text)]

def Param.outline : Param → Json
  | .literal v => .object [("literal", v.outline)]
  | .wallet r => r.outline
  | .template text type =>
    .object [("template", .string text), ("type", .string type.text),
      ("indices", .list .nat (argIndices text))]

def Resolution.outlineFields : Resolution → List (String × Json)
  | .resolved v => [("resolved", v.outline)]
  | .deferred p reason => [("deferred", p.outline), ("reason", .string reason.text)]

def Slot.outline (s : Slot) : Json :=
  .object s.resolution.outlineFields

/--
The kind of a scalar and its text. Whole numbers that a signed word holds are told from larger ones.
-/
def Scalar.outline (s : Scalar) : Json :=
  let kind := match s with
    | .bool _ => "bool"
    | .int n => if n < 2 ^ 63 then "int" else "uint"
    | .float _ => "float"
    | .string _ => "string"
  .array [.string kind, .string s.text]

def ParamDecl.outline : ParamDecl → Json
  | .plain s => s.outline
  | .typed p =>
    .object [("type", .optional .string p.type), ("value", .optional Scalar.outline p.value),
      ("reference", .optional .string p.reference)]

end Runbook
