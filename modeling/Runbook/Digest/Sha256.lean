import Runbook.Text.Hex

/-!
This module contains the hash function SHA-256.
-/

namespace Runbook.Sha256

structure State where
  a : UInt32
  b : UInt32
  c : UInt32
  d : UInt32
  e : UInt32
  f : UInt32
  g : UInt32
  h : UInt32

def initial : State :=
  ⟨0x6a09e667, 0xbb67ae85, 0x3c6ef372, 0xa54ff53a, 0x510e527f, 0x9b05688c, 0x1f83d9ab, 0x5be0cd19⟩

def constants : List UInt32 :=
  [0x428a2f98, 0x71374491, 0xb5c0fbcf, 0xe9b5dba5, 0x3956c25b, 0x59f111f1, 0x923f82a4, 0xab1c5ed5,
    0xd807aa98, 0x12835b01, 0x243185be, 0x550c7dc3, 0x72be5d74, 0x80deb1fe, 0x9bdc06a7, 0xc19bf174,
    0xe49b69c1, 0xefbe4786, 0x0fc19dc6, 0x240ca1cc, 0x2de92c6f, 0x4a7484aa, 0x5cb0a9dc, 0x76f988da,
    0x983e5152, 0xa831c66d, 0xb00327c8, 0xbf597fc7, 0xc6e00bf3, 0xd5a79147, 0x06ca6351, 0x14292967,
    0x27b70a85, 0x2e1b2138, 0x4d2c6dfc, 0x53380d13, 0x650a7354, 0x766a0abb, 0x81c2c92e, 0x92722c85,
    0xa2bfe8a1, 0xa81a664b, 0xc24b8b70, 0xc76c51a3, 0xd192e819, 0xd6990624, 0xf40e3585, 0x106aa070,
    0x19a4c116, 0x1e376c08, 0x2748774c, 0x34b0bcb5, 0x391c0cb3, 0x4ed8aa4a, 0x5b9cca4f, 0x682e6ff3,
    0x748f82ee, 0x78a5636f, 0x84c87814, 0x8cc70208, 0x90befffa, 0xa4506ceb, 0xbef9a3f7, 0xc67178f2]

def rotate (x : UInt32) (count : UInt32) : UInt32 :=
  (x >>> count) ||| (x <<< (32 - count))

def extend (w : List UInt32) : Nat → List UInt32
  | 0 => w
  | count + 1 =>
    let w15 := w.getD 14 0
    let w2 := w.getD 1 0
    let s0 := rotate w15 7 ^^^ rotate w15 18 ^^^ (w15 >>> 3)
    let s1 := rotate w2 17 ^^^ rotate w2 19 ^^^ (w2 >>> 10)
    extend ((w.getD 15 0 + s0 + w.getD 6 0 + s1) :: w) count

def rounds (a b c d e f g h : UInt32) : List UInt32 → List UInt32 → State
  | k :: ks, w :: ws =>
    let s1 := rotate e 6 ^^^ rotate e 11 ^^^ rotate e 25
    let choice := (e &&& f) ^^^ (~~~e &&& g)
    let t1 := h + s1 + choice + k + w
    let s0 := rotate a 2 ^^^ rotate a 13 ^^^ rotate a 22
    let majority := (a &&& b) ^^^ (a &&& c) ^^^ (b &&& c)
    rounds (t1 + s0 + majority) a b c (d + t1) e f g ks ws
  | _, _ => ⟨a, b, c, d, e, f, g, h⟩

def compress (s : State) (block : List UInt32) : State :=
  let t := rounds s.a s.b s.c s.d s.e s.f s.g s.h constants (extend block.reverse 48).reverse
  ⟨s.a + t.a, s.b + t.b, s.c + t.c, s.d + t.d, s.e + t.e, s.f + t.f, s.g + t.g, s.h + t.h⟩

def words : Bytes → List UInt32
  | a :: b :: c :: d :: rest =>
    ((a.toUInt32 <<< 24) ||| (b.toUInt32 <<< 16) ||| (c.toUInt32 <<< 8) ||| d.toUInt32)
      :: words rest
  | _ => []

def bytesOfWord (x : UInt32) : Bytes :=
  [(x >>> 24).toUInt8, (x >>> 16).toUInt8, (x >>> 8).toUInt8, x.toUInt8]

def digest (s : State) : Bytes :=
  [s.a, s.b, s.c, s.d, s.e, s.f, s.g, s.h].flatMap bytesOfWord

theorem length_digest (s : State) : (digest s).length = 32 := by
  simp [digest, bytesOfWord]

/--
A message's last bytes, filled up to whole blocks: a one bit, zeros, and the length of `size` bytes
in bits.
-/
def pad (size : Nat) (bs : Bytes) : Bytes :=
  let zeros := (119 - bs.length % 64) % 64
  let bits := (8 * size).toUInt64
  let length : Bytes := (List.range 8).map fun i => (bits >>> (56 - 8 * i).toUInt64).toUInt8
  bs ++ [0x80] ++ List.replicate zeros 0 ++ length

def absorb (s : State) (ws : List UInt32) : State :=
  if _h : ws.length < 16 then s
  else absorb (compress s (ws.take 16)) (ws.drop 16)
termination_by ws.length
decreasing_by
  simp only [List.length_drop]
  omega

def start (bs : Bytes) : State :=
  absorb initial (words bs)

/--
The hash of a message that goes on with `rest` after `before` bytes in whole blocks.
-/
def finish (s : State) (before : Nat) (rest : Bytes) : Bytes :=
  digest (absorb s (words (pad (before + rest.length) rest)))

def hash (message : Bytes) : Bytes :=
  finish initial 0 message

theorem length_hash (message : Bytes) : (hash message).length = 32 :=
  length_digest _

end Runbook.Sha256
