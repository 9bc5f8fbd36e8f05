import Runbook.Calc.Evaluate
import Runbook.Param.Value

/-!
This module contains the reading of parameter values from text.
-/

namespace Runbook

/--
The integer that an expression stands for, wanted as a value of type `type`.
-/
def parseInteger (type : ParamType) (raw : String) : Result Int :=
  (Result.changeKind .resolution (Calc.evaluateInt raw)).attach
    ("'" ++ raw ++ "' is not a valid " ++ type.text)

def parseBool (raw : String) : Result Bool :=
  (Result.changeKind .resolution (Calc.evaluateBool raw)).attach
    ("'" ++ raw ++ "' is not a valid bool")

def parseBytes (raw : String) : Result Bytes :=
  match raw.toList with
  | '0' :: 'x' :: digits | '0' :: 'X' :: digits =>
    match Text.unhex? (String.ofList digits) with
    | some bs => pure bs
    | none => fail .resolution ("'" ++ raw ++ "' is not valid hex")
  | _ => pure raw.toUTF8.toList

def parseParam (type : ParamType) (raw : String) : Result Value :=
  match type with
  | .string => pure (.string raw)
  | .address =>
    match Address.parse? (Text.trim raw) with
    | some a => pure (.address a)
    | none => fail .resolution ("'" ++ raw ++ "' is not a valid address")
  | .bytes => (parseBytes raw).map .bytes
  | .bool => (parseBool raw).map .bool
  | .byte => do
    let value ← parseInteger type raw
    if 0 ≤ value ∧ value < 256 then return .byte (UInt8.ofNat value.toNat)
    else fail .resolution (toString value ++ " does not fit in a byte")
  | .int int => do
    let value ← parseInteger type raw
    if int.accepts value then return .int value int
    else
      fail .resolution
        ("value " ++ toString value ++ " does not fit declared type " ++ int.text)

end Runbook
