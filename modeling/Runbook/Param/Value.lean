import Runbook.Address
import Runbook.Json.Basic
import Runbook.Param.Type

/-!
This module contains the values of command parameters and their texts.
-/

namespace Runbook

inductive Value where
  | string (s : String)
  | address (a : Address)
  | byte (b : UInt8)
  | bytes (bs : Bytes)
  | bool (b : Bool)
  | int (value : Int) (type : IntType)
deriving Repr, DecidableEq

def hexNat (n : Nat) : String :=
  String.ofList (Nat.toDigits 16 n)

def hexQuantity (n : Int) : String :=
  (if n < 0 then "-0x" else "0x") ++ hexNat n.natAbs

namespace Value

def uint256 (n : Nat) : Value :=
  int n ⟨false, some 256⟩

def type : Value → ParamType
  | string _ => .string
  | address _ => .address
  | byte _ => .byte
  | bytes _ => .bytes
  | bool _ => .bool
  | int _ type => .int type

def text : Value → String
  | string s => s
  | address a => a.text
  | byte b => toString b.toNat
  | bytes bs => Text.hexPrefixed bs
  | bool b => toString b
  | int value _ => toString value

def json : Value → Json
  | string s => .string s
  | address a => .string a.text
  | byte b => .string (hexQuantity b.toNat)
  | bytes bs => .string (Text.hexPrefixed bs)
  | bool b => .bool b
  | int value _ => .string (hexQuantity value)

end Value

def toAmount (n : Int) : Result Nat :=
  if n < 0 then
    fail .resolution ("negative value " ++ toString n ++ " cannot be used as an unsigned amount")
  else if n.toNat < 2 ^ 256 then pure n.toNat
  else fail .resolution ("value " ++ toString n ++ " exceeds 256 bits")

def toSigned (n : Int) : Result Int :=
  if -2 ^ 255 ≤ n ∧ n < 2 ^ 255 then pure n
  else fail .resolution ("value " ++ toString n ++ " does not fit a signed 256-bit integer")

end Runbook
