import Runbook.Text.Hex

/-!
This module contains the hash function Keccak-256.
-/

namespace Runbook.Keccak

/--
Twenty-five lanes; lane `x + 5 * y` is that of column `x` and row `y`.
-/
abbrev State := Vector UInt64 25

def rotate (x : UInt64) (count : UInt64) : UInt64 :=
  (x <<< count) ||| (x >>> (64 - count))

def lane (s : State) (x y : Nat) : UInt64 :=
  s[x % 5 + 5 * (y % 5)]

def offsets : Vector UInt64 25 :=
  #v[0, 1, 62, 28, 27, 36, 44, 6, 55, 20, 3, 10, 43, 25, 39, 41, 45, 15, 21, 8, 18, 2, 61, 56, 14]

def roundConstants : List UInt64 :=
  [0x0000000000000001, 0x0000000000008082, 0x800000000000808A, 0x8000000080008000,
   0x000000000000808B, 0x0000000080000001, 0x8000000080008081, 0x8000000000008009,
   0x000000000000008A, 0x0000000000000088, 0x0000000080008009, 0x000000008000000A,
   0x000000008000808B, 0x800000000000008B, 0x8000000000008089, 0x8000000000008003,
   0x8000000000008002, 0x8000000000000080, 0x000000000000800A, 0x800000008000000A,
   0x8000000080008081, 0x8000000000008080, 0x0000000080000001, 0x8000000080008008]

def theta (s : State) : State :=
  let parity : Vector UInt64 5 := Vector.ofFn fun x =>
    lane s x 0 ^^^ lane s x 1 ^^^ lane s x 2 ^^^ lane s x 3 ^^^ lane s x 4
  let column (x : Nat) : UInt64 := parity[x % 5]
  Vector.ofFn fun i => s[i] ^^^ column (i + 4) ^^^ rotate (column (i + 1)) 1

def rhoPi (s : State) : State :=
  Vector.ofFn fun i =>
    let x := (i.val % 5 + 3 * (i.val / 5)) % 5
    let y := i.val % 5
    rotate (lane s x y) (lane offsets x y)

def chi (s : State) : State :=
  Vector.ofFn fun i =>
    let y := i.val / 5
    s[i] ^^^ (~~~lane s (i + 1) y &&& lane s (i + 2) y)

def round (s : State) (constant : UInt64) : State :=
  let s := chi (rhoPi (theta s))
  s.set 0 (s[0] ^^^ constant)

def permute (s : State) : State :=
  roundConstants.foldl round s

def rate : Nat := 136

def laneOfBytes (bs : Bytes) : UInt64 :=
  bs.foldr (fun b n => (n <<< 8) ||| b.toUInt64) 0

def absorb (s : State) (block : Bytes) : State :=
  permute (Vector.ofFn fun i =>
    if i.val < 17 then s[i] ^^^ laneOfBytes ((block.drop (8 * i.val)).take 8) else s[i])

def pad (bs : Bytes) : Bytes :=
  if bs.length = rate - 1 then bs ++ [0x81]
  else bs ++ [0x01] ++ List.replicate (rate - 2 - bs.length) 0 ++ [0x80]

def absorbAll (s : State) (bs : Bytes) : State :=
  if _h : bs.length < rate then absorb s (pad bs)
  else absorbAll (absorb s (bs.take rate)) (bs.drop rate)
termination_by bs.length
decreasing_by
  simp only [List.length_drop, rate] at *
  omega

def bytesOfLane (x : UInt64) : Bytes :=
  (List.range 8).map fun i => (x >>> (8 * i).toUInt64).toUInt8

def hash (message : Bytes) : Bytes :=
  let s := absorbAll (Vector.replicate 25 0) message
  (List.range 4).flatMap fun x => bytesOfLane (lane s x 0)

theorem length_hash (message : Bytes) : (hash message).length = 32 := by
  simp only [hash, List.length_flatMap, bytesOfLane, List.length_map, List.length_range]
  rfl

end Runbook.Keccak
