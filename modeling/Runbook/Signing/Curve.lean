import Runbook.Number.Power

/-!
This module contains the curve `y² = x³ + 7` that accounts sign on, and its group of points.
-/

namespace Runbook

def powMod (base exponent modulus : Nat) : Nat :=
  go (exponent.log2 + 1) base exponent
where
  go : Nat → Nat → Nat → Nat
    | 0, _, _ => 1 % modulus
    | fuel + 1, base, exponent =>
      if exponent = 0 then 1 % modulus
      else
        let rest := go fuel (base * base % modulus) (exponent / 2)
        if exponent % 2 = 1 then base * rest % modulus else rest

namespace Curve

def fieldPrime : Nat :=
  2 ^ 256 - 2 ^ 32 - 977

def order : Nat :=
  0xfffffffffffffffffffffffffffffffebaaedce6af48a03bbfd25e8cd0364141

def baseX : Nat :=
  0x79be667ef9dcbbac55a06295ce870b07029bfcdb2dce28d959f2815b16f81798

def baseY : Nat :=
  0x483ada7726a3c4655da4fbfc0e1108a8fd17b448a68554199c47d08ffb10d4b8

def add (a b : Nat) : Nat := (a + b) % fieldPrime

def sub (a b : Nat) : Nat := (a + fieldPrime - b) % fieldPrime

def mul (a b : Nat) : Nat := a * b % fieldPrime

/--
The point `(x / z², y / z³)`; with `z = 0`, the point at infinity.
-/
structure Point where
  x : Nat
  y : Nat
  z : Nat
deriving Repr, DecidableEq

namespace Point

def infinity : Point := ⟨1, 1, 0⟩

def base : Point := ⟨baseX, baseY, 1⟩

def double (p : Point) : Point :=
  if p.z = 0 || p.y = 0 then infinity
  else
    let yy := mul p.y p.y
    let s := mul 4 (mul p.x yy)
    let m := mul 3 (mul p.x p.x)
    let x := sub (mul m m) (mul 2 s)
    ⟨x, sub (mul m (sub s x)) (mul 8 (mul yy yy)), mul 2 (mul p.y p.z)⟩

def add (p q : Point) : Point :=
  if p.z = 0 then q
  else if q.z = 0 then p
  else
    let pzz := mul p.z p.z
    let qzz := mul q.z q.z
    let u := mul p.x qzz
    let v := mul q.x pzz
    let s := mul p.y (mul qzz q.z)
    let t := mul q.y (mul pzz p.z)
    let h := sub v u
    let r := sub t s
    -- The points are the same, or inverse to each other.
    if h = 0 then (if r = 0 then double p else infinity)
    else
      let hh := mul h h
      let hhh := mul h hh
      let w := mul u hh
      let x := sub (sub (mul r r) hhh) (mul 2 w)
      ⟨x, sub (mul r (sub w x)) (mul s hhh), mul h (mul p.z q.z)⟩

def smul (n : Nat) (p : Point) : Point :=
  go (n.log2 + 1) n p
where
  go : Nat → Nat → Point → Point
    | 0, _, _ => infinity
    | fuel + 1, n, p =>
      if n = 0 then infinity
      else
        let rest := go fuel (n / 2) (double p)
        if n % 2 = 1 then add p rest else rest

def affine? (p : Point) : Option (Nat × Nat) :=
  if p.z = 0 then none
  else
    let inverse := powMod p.z (fieldPrime - 2) fieldPrime
    let square := mul inverse inverse
    some (mul p.x square, mul p.y (mul square inverse))

end Point

end Curve

end Runbook
