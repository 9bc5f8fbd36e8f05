import Runbook.Abi.Decode
import Runbook.Abi.Interface
import Runbook.Abi.Literal
import Runbook.Param.Value

/-!
This module contains what goes into and comes out of contracts: the data of calls and deployments,
and the values in returned data.
-/

namespace Runbook.Abi

def fillBytes (size : Nat) (bs : Bytes) : Result AbiValue :=
  if size < bs.length then
    fail .codec (toString bs.length ++ " bytes do not fit bytes" ++ toString size)
  else
    pure (.fixedBytes (bs ++ List.replicate (size - bs.length) 0))

def AbiValue.ofValue (t : AbiType) (v : Value) : Result AbiValue :=
  match v, t with
  | .address a, .address => pure (.address a)
  | .bool b, .bool => pure (.bool b)
  -- The width of the type is not looked at, only that of a word.
  | .int n _, .uint _ => (Result.changeKind .codec (toAmount n)).map .uint
  | .int n _, .int _ => (Result.changeKind .codec (toSigned n)).map .int
  | .byte b, .uint _ => pure (.uint b.toNat)
  | .byte b, .fixedBytes size => fillBytes size [b]
  | .bytes bs, .bytes => pure (.bytes bs)
  | .bytes bs, .fixedBytes size => fillBytes size bs
  | .string s, .string => pure (.string s)
  -- A value of another kind is read from its text.
  | v, t =>
    match t.parse? v.text with
    | some a => pure a
    | none => fail .codec ("cannot convert '" ++ v.text ++ "'")

def argument (p : Parameter) (v : Value) : Result AbiValue :=
  match p.resolve? with
  | none => fail .codec ("unsupported ABI type " ++ p.type)
  | some t =>
    (AbiValue.ofValue t v).attach
      ("encoding " ++ v.text ++ " as " ++ p.type ++ " (" ++ p.name ++ ")")

def arguments (index : Nat) : List Parameter → List Value → Result (List AbiValue)
  | p :: ps, v :: vs => do
    let a ← (argument p v).attach ("parameter #" ++ toString index)
    return a :: (← arguments (index + 1) ps vs)
  | _, _ => pure []

def Interface.find (i : Interface) (method : String) (arity : Nat) : Result Function :=
  let overloads := i.functionsNamed method
  if overloads.isEmpty then fail .codec ("function '" ++ method ++ "' not found in ABI")
  else
    match overloads.find? (·.inputs.length == arity) with
    | some f => pure f
    | none =>
      let arities := overloads.map fun f => toString f.inputs.length
      fail .codec ("function '" ++ method ++ "' expects " ++ " or ".intercalate arities
        ++ " arguments, got " ++ toString arity)

/--
The data of a call: the selector and the encoded arguments. Values beyond the inputs are dropped.
-/
def Function.callData (f : Function) (values : List Value) : Result Bytes := do
  let args ← (arguments 0 f.inputs values).attach ("encoding arguments of '" ++ f.name ++ "'")
  if args.length ≠ f.inputs.length then fail .codec ("failed to encode call to '" ++ f.name ++ "'")
  else return f.selector ++ layout (AbiValue.parts args)

def Interface.deployData (i : Interface) (bytecode : Bytes) (values : List Value) : Result Bytes :=
  match i.constructor? with
  | some inputs =>
    if inputs.length ≠ values.length then
      fail .codec ("constructor expects " ++ toString inputs.length ++ " arguments, got "
        ++ toString values.length)
    else do
      let args ← (arguments 0 inputs values).attach "encoding constructor arguments"
      return bytecode ++ layout (AbiValue.parts args)
  | none =>
    if values.isEmpty then pure bytecode
    else
      fail .codec ("contract has no constructor but " ++ toString values.length
        ++ " arguments were given")

def maxGenericWords : Nat := 32

/--
The first words of `data` as numbers, up to `count` of them; part of a word is dropped.
-/
def genericWords : Nat → Bytes → List Nat
  | 0, _ => []
  | count + 1, data =>
    if data.length < 32 then []
    else natOfBytes (data.take 32) :: genericWords count (data.drop 32)

/--
The values that a call returned: one value by itself, others as a list. Data that does not decode is
shown as words, if the function has several outputs or the data is longer than a word.
-/
def Function.decodeOutputs (f : Function) (data : Bytes) : Result Json :=
  match (Parameter.resolveAll? f.outputs).bind (decode? · data) with
  | some [v] => pure v.json
  | some vs => pure (.array (vs.map AbiValue.json))
  | none =>
    let isWide := 1 < f.outputs.length ∨ 32 < data.length
    let words := if isWide then genericWords maxGenericWords data else []
    if words.isEmpty then fail .codec ("failed to decode output of '" ++ f.name ++ "'")
    else pure (.array (words.map fun n => .string (toString n)))

end Runbook.Abi
