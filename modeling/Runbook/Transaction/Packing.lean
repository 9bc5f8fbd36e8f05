import Runbook.Number.Bytes

/-!
This module contains the packing of nested byte strings that transactions are written in.
-/

namespace Runbook

inductive Packing where
  | bytes (bs : Bytes)
  | list (items : List Packing)

def shortBytes (n : Nat) : Bytes :=
  if n = 0 then [] else bytesOfNat (n.log2 / 8 + 1) n

namespace Packing

def ofNat (n : Nat) : Packing :=
  .bytes (shortBytes n)

/--
A body behind its length. `base` tells strings from lists.
-/
def framed (base : Nat) (body : Bytes) : Bytes :=
  if body.length < 56 then UInt8.ofNat (base + body.length) :: body
  else
    let length := shortBytes body.length
    UInt8.ofNat (base + 55 + length.length) :: (length ++ body)

/--
The packed form. A byte below 128 stands for itself.
-/
def encode : Packing → Bytes
  | .bytes [b] => if b < 0x80 then [b] else framed 0x80 [b]
  | .bytes bs => framed 0x80 bs
  | .list items => framed 0xc0 (encodeAll items)
where
  encodeAll : List Packing → Bytes
    | [] => []
    | p :: ps => encode p ++ encodeAll ps

end Packing

end Runbook
