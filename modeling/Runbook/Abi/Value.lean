import Runbook.Abi.Type
import Runbook.Address
import Runbook.Json.Basic
import Runbook.Number.Bytes
import Runbook.Text.Utf8

/-!
This module contains the values of ABI types, their encoding, and their JSON form.
-/

namespace Runbook.Abi

/--
A value of an ABI type. The bytes of a fixed size are as many as the type says, and a string that
was not valid text keeps replacement characters.
-/
inductive AbiValue where
  | bool (b : Bool)
  | address (a : Address)
  | function (bs : Bytes)
  | string (s : String)
  | bytes (bs : Bytes)
  | uint (n : Nat)
  | int (n : Int)
  | fixedBytes (bs : Bytes)
  | array (items : List AbiValue)
  | fixedArray (items : List AbiValue)
  | tuple (items : List AbiValue)
deriving Repr, Inhabited

def word (n : Nat) : Bytes :=
  bytesOfNat 32 n

def signedWord (n : Int) : Bytes :=
  word (n % 2 ^ 256).toNat

def natToSigned (n : Nat) : Int :=
  if n < 2 ^ 255 then n else n - 2 ^ 256

def padRight (bs : Bytes) : Bytes :=
  bs ++ List.replicate ((32 - bs.length % 32) % 32) 0

structure Part where
  dynamic : Bool
  body : Bytes

def Part.headSize (p : Part) : Nat :=
  if p.dynamic then 32 else p.body.length

def headsSize : List Part → Nat
  | [] => 0
  | p :: ps => p.headSize + headsSize ps

def heads (offset : Nat) : List Part → Bytes
  | [] => []
  | p :: ps =>
    if p.dynamic then word offset ++ heads (offset + p.body.length) ps
    else p.body ++ heads offset ps

def tails : List Part → Bytes
  | [] => []
  | p :: ps => if p.dynamic then p.body ++ tails ps else tails ps

/--
Heads in a row, then tails in a row; the head of a dynamic part is the place of its tail.
-/
def layout (parts : List Part) : Bytes :=
  heads (headsSize parts) parts ++ tails parts

namespace AbiValue

mutual

def isDynamic : AbiValue → Bool
  | string _ | bytes _ | array _ => true
  | fixedArray items | tuple items => anyDynamic items
  | _ => false

def anyDynamic : List AbiValue → Bool
  | [] => false
  | v :: vs => isDynamic v || anyDynamic vs

end

mutual

def encode : AbiValue → Bytes
  | bool b => word (if b then 1 else 0)
  | address a => List.replicate 12 0 ++ a.bytes
  | function bs | fixedBytes bs => padRight bs
  | string s => word s.utf8ByteSize ++ padRight s.toUTF8.toList
  | bytes bs => word bs.length ++ padRight bs
  | uint n => word n
  | int n => signedWord n
  | array items => word items.length ++ layout (parts items)
  | fixedArray items | tuple items => layout (parts items)

def parts : List AbiValue → List Part
  | [] => []
  | v :: vs => ⟨v.isDynamic, encode v⟩ :: parts vs

end

mutual

def json : AbiValue → Json
  | bool b => .bool b
  | address a => .string a.text
  | function bs | bytes bs | fixedBytes bs => .string (Text.hexPrefixed bs)
  | string s => .string s
  | uint n => .string (toString n)
  | int n => .string (toString n)
  | array items | fixedArray items | tuple items => .array (jsonItems items)

def jsonItems : List AbiValue → List Json
  | [] => []
  | v :: vs => json v :: jsonItems vs

end

end AbiValue

end Runbook.Abi
