import Runbook.Number.Bytes

/-!
This module contains the block cipher AES with keys of sixteen bytes, in counter mode.
-/

namespace Runbook.Aes

/--
Twice a byte, as a polynomial modulo `x^8 + x^4 + x^3 + x + 1`.
-/
def double (b : UInt8) : UInt8 :=
  (b <<< 1) ^^^ (if b &&& 0x80 != 0 then 0x1b else 0)

def mul (a b : UInt8) : UInt8 :=
  go a b 8
where
  go (a b : UInt8) : Nat → UInt8
    | 0 => 0
    | n + 1 => (if b &&& 1 != 0 then a else 0) ^^^ go (double a) (b >>> 1) n

/--
The inverse of a byte, which is its power 254, and zero for zero.
-/
def inverse (b : UInt8) : UInt8 :=
  let square (b : UInt8) := mul b b
  go (square b) 1 7
where
  go (b product : UInt8) : Nat → UInt8
    | 0 => product
    | n + 1 => go (mul b b) (mul b product) n

def rotate (b : UInt8) (count : UInt8) : UInt8 :=
  (b <<< count) ||| (b >>> (8 - count))

def substituted (b : UInt8) : UInt8 :=
  let i := inverse b
  i ^^^ rotate i 1 ^^^ rotate i 2 ^^^ rotate i 3 ^^^ rotate i 4 ^^^ 0x63

def substitution : Array UInt8 :=
  ((List.range 256).map fun i => substituted (UInt8.ofNat i)).toArray

def substitute (b : UInt8) : UInt8 :=
  substitution.getD b.toNat 0

abbrev Column := UInt8 × UInt8 × UInt8 × UInt8

namespace Column

def map (f : UInt8 → UInt8) : Column → Column
  | (a, b, c, d) => (f a, f b, f c, f d)

def xor : Column → Column → Column
  | (a, b, c, d), (a', b', c', d') => (a ^^^ a', b ^^^ b', c ^^^ c', d ^^^ d')

def mix : Column → Column
  | (a, b, c, d) =>
    (double a ^^^ double b ^^^ b ^^^ c ^^^ d, a ^^^ double b ^^^ double c ^^^ c ^^^ d,
      a ^^^ b ^^^ double c ^^^ double d ^^^ d, double a ^^^ a ^^^ b ^^^ c ^^^ double d)

def bytes : Column → Bytes
  | (a, b, c, d) => [a, b, c, d]

end Column

abbrev Block := Column × Column × Column × Column

namespace Block

def ofBytes (bs : Bytes) : Block :=
  let column (i : Nat) : Column :=
    (bs.getD (4 * i) 0, bs.getD (4 * i + 1) 0, bs.getD (4 * i + 2) 0, bs.getD (4 * i + 3) 0)
  (column 0, column 1, column 2, column 3)

def bytes : Block → Bytes
  | (a, b, c, d) => a.bytes ++ b.bytes ++ c.bytes ++ d.bytes

def map (f : Column → Column) : Block → Block
  | (a, b, c, d) => (f a, f b, f c, f d)

def xor : Block → Block → Block
  | (a, b, c, d), (a', b', c', d') => (a.xor a', b.xor b', c.xor c', d.xor d')

def shift : Block → Block
  | ((a0, a1, a2, a3), (b0, b1, b2, b3), (c0, c1, c2, c3), (d0, d1, d2, d3)) =>
    ((a0, b1, c2, d3), (b0, c1, d2, a3), (c0, d1, a2, b3), (d0, a1, b2, c3))

end Block

def nextKey (constant : UInt8) : Block → Block
  | (a, b, c, d) =>
    let (d0, d1, d2, d3) := d
    let turned : Column :=
      (substitute d1 ^^^ constant, substitute d2, substitute d3, substitute d0)
    let a := a.xor turned
    let b := b.xor a
    let c := c.xor b
    (a, b, c, d.xor c)

/--
The last `count` rounds. The last one of all does not mix columns.
-/
def rounds (key : Block) (constant : UInt8) (b : Block) : Nat → Block
  | 0 => b
  | 1 => ((b.map (·.map substitute)).shift).xor (nextKey constant key)
  | count + 2 =>
    let key := nextKey constant key
    rounds key (double constant) ((((b.map (·.map substitute)).shift).map Column.mix).xor key)
      (count + 1)

def encrypt (key : Block) (b : Block) : Block :=
  rounds key 1 (b.xor key) 10

/--
The bytes that mask a message of `blocks` blocks. The counter starts as `start` and wraps around at
sixteen bytes.
-/
def stream (key : Bytes) (start : Bytes) (blocks : Nat) : Bytes :=
  (List.range blocks).flatMap fun i =>
    (encrypt (.ofBytes key) (.ofBytes (bytesOfNat 16 (natOfBytes start + i)))).bytes

def apply (key : Bytes) (start : Bytes) (message : Bytes) : Bytes :=
  List.zipWith (· ^^^ ·) message (stream key start ((message.length + 15) / 16))

end Runbook.Aes
