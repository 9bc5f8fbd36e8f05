import Runbook.Digest.Hmac
import Runbook.Number.Power

/-!
This module contains scrypt, the stretching of passwords that is costly in memory.
-/

namespace Runbook.Scrypt

/--
How costly the stretching is: `2 ^ logCost` blocks of `128 * blockSize` bytes, `lanes` times over.
-/
structure Cost where
  logCost : Nat
  blockSize : Nat
  lanes : Nat
deriving Repr, DecidableEq

def Cost.isValid (c : Cost) : Bool :=
  0 < c.blockSize && 0 < c.lanes && c.logCost < 16 * c.blockSize && c.logCost < 64 &&
    c.blockSize * c.lanes ≤ 0x3fffffff

def rotate (x : UInt32) (count : UInt32) : UInt32 :=
  (x <<< count) ||| (x >>> (32 - count))

def quarter (b : Array UInt32) (p : Nat × Nat × Nat × Nat) : Array UInt32 :=
  let (i, j, k, l) := p
  let word (b : Array UInt32) (n : Nat) := b.getD n 0
  let b := b.setIfInBounds j (word b j ^^^ rotate (word b i + word b l) 7)
  let b := b.setIfInBounds k (word b k ^^^ rotate (word b j + word b i) 9)
  let b := b.setIfInBounds l (word b l ^^^ rotate (word b k + word b j) 13)
  b.setIfInBounds i (word b i ^^^ rotate (word b l + word b k) 18)

def quarters : List (Nat × Nat × Nat × Nat) :=
  [(0, 4, 8, 12), (5, 9, 13, 1), (10, 14, 2, 6), (15, 3, 7, 11),
   (0, 1, 2, 3), (5, 6, 7, 4), (10, 11, 8, 9), (15, 12, 13, 14)]

def salsa (b : Array UInt32) : Array UInt32 :=
  let mixed := (List.range 4).foldl (fun b _ => quarters.foldl quarter b) b
  Array.zipWith (· + ·) b mixed

/--
Mix a block of `2 * blockSize` chunks of sixteen words. Chunks of even place come to stand before
those of odd place.
-/
def mixBlock (blockSize : Nat) (b : Array UInt32) : Array UInt32 :=
  let chunk (i : Nat) := b.extract (16 * i) (16 * (i + 1))
  let count := 2 * blockSize
  let (_, even, odd) := (List.range count).foldl
    (fun (last, even, odd) i =>
      let next := salsa (Array.zipWith (· ^^^ ·) last (chunk i))
      if i % 2 == 0 then (next, even ++ next, odd) else (next, even, odd ++ next))
    (chunk (count - 1), #[], #[])
  even ++ odd

def pointer (blockSize : Nat) (b : Array UInt32) : Nat :=
  let i := 16 * (2 * blockSize - 1)
  (b.getD i 0).toNat + 2 ^ 32 * (b.getD (i + 1) 0).toNat

def fill (blockSize : Nat) (b : Array UInt32) (table : Array (Array UInt32)) :
    Nat → Array UInt32 × Array (Array UInt32)
  | 0 => (b, table)
  | count + 1 => fill blockSize (mixBlock blockSize b) (table.push b) count

def visit (blockSize : Nat) (table : Array (Array UInt32)) (b : Array UInt32) : Nat → Array UInt32
  | 0 => b
  | count + 1 =>
    let entry := table.getD (pointer blockSize b % table.size) #[]
    visit blockSize table (mixBlock blockSize (Array.zipWith (· ^^^ ·) b entry)) count

def words : Bytes → List UInt32
  | a :: b :: c :: d :: rest =>
    ((d.toUInt32 <<< 24) ||| (c.toUInt32 <<< 16) ||| (b.toUInt32 <<< 8) ||| a.toUInt32)
      :: words rest
  | _ => []

def bytesOfWord (x : UInt32) : Bytes :=
  [x.toUInt8, (x >>> 8).toUInt8, (x >>> 16).toUInt8, (x >>> 24).toUInt8]

def mixLane (cost : Cost) (lane : Bytes) : Bytes :=
  let count := 2 ^ cost.logCost
  let (b, table) := fill cost.blockSize (words lane).toArray #[] count
  (visit cost.blockSize table b count).toList.flatMap bytesOfWord

def stretch (password salt : Bytes) (cost : Cost) (size : Nat) : Bytes :=
  let laneSize := 128 * cost.blockSize
  let seed := Hmac.stretch password salt 1 (cost.lanes * laneSize)
  let mixed := (List.range cost.lanes).flatMap fun i =>
    mixLane cost ((seed.drop (i * laneSize)).take laneSize)
  Hmac.stretch password mixed 1 size

end Runbook.Scrypt
