import Runbook.Fault

/-!
This module contains the types of command parameters.
-/

namespace Runbook

/--
The number of binary digits of `n`, zero for zero.
-/
def bitLength (n : Nat) : Nat :=
  if n = 0 then 0 else n.log2 + 1

/--
An integer type. Without a width it is unbounded.
-/
structure IntType where
  signed : Bool
  bits : Option Nat
deriving Repr, DecidableEq

namespace IntType

/--
Whether `value` fits. A signed type spends one bit on the sign.
-/
def accepts (t : IntType) (value : Int) : Bool :=
  match t.signed, t.bits, value with
  | false, _, .negSucc _ => false
  | _, none, _ => true
  | false, some bits, .ofNat n => bitLength n ≤ bits
  | true, some bits, .ofNat n => bitLength n < bits
  | true, some bits, .negSucc n => bitLength n < bits

def text (t : IntType) : String :=
  (if t.signed then "int" else "uint") ++ (t.bits.map toString).getD ""

end IntType

inductive ParamType where
  | string
  | address
  | byte
  | bytes
  | bool
  | int (type : IntType)
deriving Repr, DecidableEq

namespace ParamType

def text : ParamType → String
  | string => "string"
  | address => "address"
  | byte => "byte"
  | bytes => "bytes"
  | bool => "bool"
  | int type => type.text

def widths : List (String × Nat) :=
  [("8", 8), ("16", 16), ("32", 32), ("64", 64), ("128", 128), ("256", 256)]

def parseSized (name : String) (signed : Bool) (width : List Char) : Result ParamType :=
  match widths.lookup (String.ofList width) with
  | some bits => pure (int ⟨signed, some bits⟩)
  | none => fail .validation ("unsupported integer width in type '" ++ name ++ "'")

/--
The type that `name` names; no name is that of a string.
-/
def parse (name : String) : Result ParamType :=
  match name with
  | "" | "string" => pure string
  | "address" => pure address
  | "byte" => pure byte
  | "bytes" => pure bytes
  | "bool" => pure bool
  | "int" => pure (int ⟨true, none⟩)
  | "uint" => pure (int ⟨false, none⟩)
  | name =>
    match name.toList with
    | 'u' :: 'i' :: 'n' :: 't' :: width => parseSized name false width
    | 'i' :: 'n' :: 't' :: width => parseSized name true width
    | _ => fail .validation ("unsupported param type '" ++ name ++ "'")

end ParamType

end Runbook
