import Runbook.Abi.Value

/-!
This module contains the decoding of ABI values. Bytes behind the value are ignored.
-/

namespace Runbook.Abi

/--
Reads a value at a place of a buffer; offsets count from the buffer's start. The result is the place
behind the value's head. `depth` counts the buffers around this one.
-/
abbrev Decoder (α : Type) := (depth : Nat) → (buffer : Bytes) → (place : Nat) → Option (α × Nat)

namespace Decoder

def maxDepth : Nat := 16

def wordAt (buffer : Bytes) (place : Nat) : Option Nat :=
  let w := (buffer.drop place).take 32
  if w.length = 32 then some (natOfBytes w) else none

/--
A word that counts bytes or items stays within 64 bits.
-/
def countAt (buffer : Bytes) (place : Nat) : Option Nat :=
  (wordAt buffer place).filter (· < 2 ^ 64)

def child (depth : Nat) (buffer : Bytes) (offset : Nat) : Option Bytes :=
  if depth < maxDepth ∧ offset ≤ buffer.length then some (buffer.drop offset) else none

def ofWord {α : Type} (f : Nat → α) : Decoder α := fun _ buffer place =>
  (wordAt buffer place).map fun n => (f n, place + 32)

def packed {α : Type} (f : Bytes → α) : Decoder α := fun depth buffer place => do
  let offset ← countAt buffer place
  let sub ← child depth buffer offset
  let size ← countAt sub 0
  if 32 + size ≤ sub.length then some (f ((sub.drop 32).take size), place + 32) else none

def sequence {α : Type} : List (Decoder α) → Decoder (List α)
  | [], _, _, place => some ([], place)
  | d :: ds, depth, buffer, place => do
    let (v, place) ← d depth buffer place
    let (vs, place) ← sequence ds depth buffer place
    return (v :: vs, place)

def aggregate {α : Type} (dynamic : Bool) (ds : List (Decoder α)) : Decoder (List α) :=
  fun depth buffer place =>
    if dynamic then do
      let offset ← countAt buffer place
      let sub ← child depth buffer offset
      let (vs, _) ← sequence ds (depth + 1) sub 0
      return (vs, place + 32)
    else do
      let sub ← child depth buffer place
      let (vs, size) ← sequence ds (depth + 1) sub 0
      return (vs, place + size)

def many {α : Type} (words : Nat) (d : Decoder α) : Decoder (List α) := fun depth buffer place => do
  let offset ← countAt buffer place
  let sub ← child depth buffer offset
  let size ← countAt sub 0
  if size = 0 then return ([], place + 32)
  let items ← child (depth + 1) sub 32
  -- A count that the data has no room for is refused before any item is read.
  if items.length / 32 < size * words then none
  else
    let (vs, _) ← sequence (List.replicate size d) (depth + 2) items 0
    return (vs, place + 32)

def map {α β : Type} (f : α → β) (d : Decoder α) : Decoder β := fun depth buffer place =>
  (d depth buffer place).map fun (v, place) => (f v, place)

end Decoder

namespace AbiType

mutual

def isDynamic : AbiType → Bool
  | string | bytes | array _ => true
  | fixedArray item _ => item.isDynamic
  | tuple items => anyDynamic items
  | _ => false

def anyDynamic : List AbiType → Bool
  | [] => false
  | t :: ts => t.isDynamic || anyDynamic ts

end

mutual

def minWords : AbiType → Nat
  | fixedArray item size => size * item.minWords
  | tuple items => sumWords items
  | _ => 1

def sumWords : List AbiType → Nat
  | [] => 0
  | t :: ts => t.minWords + sumWords ts

end

mutual

def decoder : AbiType → Decoder AbiValue
  | bool => .ofWord fun n => .bool (n != 0)
  | address => .ofWord fun n => .address (.ofWord (word n))
  | function => .ofWord fun n => .function ((word n).take 24)
  | string => .packed fun bs => .string (String.ofList (Text.decodeUtf8 bs))
  | bytes => .packed .bytes
  | uint _ => .ofWord .uint
  | int _ => .ofWord fun n => .int (natToSigned n)
  | fixedBytes size => .ofWord fun n => .fixedBytes ((word n).take size)
  -- An item that has no words takes the room of one, or else any count would do.
  | array item => (Decoder.many (max 1 item.minWords) item.decoder).map .array
  | fixedArray item size =>
    (Decoder.aggregate item.isDynamic (List.replicate size item.decoder)).map .fixedArray
  | tuple items => (Decoder.aggregate (anyDynamic items) (decoders items)).map .tuple

def decoders : List AbiType → List (Decoder AbiValue)
  | [] => []
  | t :: ts => t.decoder :: decoders ts

end

end AbiType

def decode? (ts : List AbiType) (data : Bytes) : Option (List AbiValue) :=
  (Decoder.sequence (AbiType.decoders ts) 0 data 0).map (·.1)

end Runbook.Abi
