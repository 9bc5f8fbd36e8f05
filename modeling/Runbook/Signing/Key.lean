import Runbook.Address
import Runbook.Digest.Hmac
import Runbook.Digest.Keccak
import Runbook.Number.Bytes
import Runbook.Signing.Curve

/-!
This module contains private keys and their signatures.
-/

namespace Runbook

/--
A private key: a number that is not zero and below the curve's order.
-/
structure PrivateKey where
  scalar : Nat
  scalar_pos : 0 < scalar
  scalar_lt : scalar < Curve.order
deriving DecidableEq

/--
A signature. `odd` tells which of the two points with the abscissa `r` was used.
-/
structure Signature where
  r : Nat
  s : Nat
  odd : Bool
deriving Repr, DecidableEq

namespace PrivateKey

def ofNat? (n : Nat) : Option PrivateKey :=
  if h : 0 < n ∧ n < Curve.order then some ⟨n, h.1, h.2⟩ else none

def ofBytes? (bs : Bytes) : Option PrivateKey :=
  if bs.length = 32 then ofNat? (natOfBytes bs) else none

def parse? (s : String) : Option PrivateKey :=
  (Text.unhex? s).bind ofBytes?

def bytes (k : PrivateKey) : Bytes :=
  bytesOfNat 32 k.scalar

def address (k : PrivateKey) : Address :=
  match (Curve.Point.base.smul k.scalar).affine? with
  | some (x, y) => .ofWord (Keccak.hash (bytesOfNat 32 x ++ bytesOfNat 32 y))
  | none => .zero

structure NonceSource where
  key : Bytes
  value : Bytes

namespace NonceSource

def update (g : NonceSource) (seed : Bytes) : NonceSource :=
  let key := (Hmac.ofKey g.key).sign (g.value ++ seed)
  { key, value := (Hmac.ofKey key).sign g.value }

def start (k : PrivateKey) (digest : Nat) : NonceSource :=
  let seed := k.bytes ++ bytesOfNat 32 (digest % Curve.order)
  let g : NonceSource := { key := List.replicate 32 0, value := List.replicate 32 1 }
  (g.update (0 :: seed)).update (1 :: seed)

def next (g : NonceSource) : Nat × NonceSource :=
  let value := (Hmac.ofKey g.key).sign g.value
  (natOfBytes value, { g with value }.update [0])

end NonceSource

/--
The signature with the secret number `nonce`, if that number can be used. Of the two values of `s`
the smaller one is taken.
-/
def signWith? (k : PrivateKey) (digest nonce : Nat) : Option Signature := do
  guard (0 < nonce && nonce < Curve.order)
  let (x, y) ← (Curve.Point.base.smul nonce).affine?
  let r := x % Curve.order
  let inverse := powMod nonce (Curve.order - 2) Curve.order
  let s := inverse * (digest + r * k.scalar) % Curve.order
  guard (r != 0 && s != 0)
  let high := Curve.order / 2 < s
  return { r, s := if high then Curve.order - s else s, odd := (y % 2 == 1) != high }

/--
Sign a digest. One number in about `2 ^ 127` cannot be used, and a handful is tried.
-/
def sign? (k : PrivateKey) (digest : Bytes) : Option Signature :=
  let digest := natOfBytes digest
  go digest (.start k digest) 8
where
  go (digest : Nat) (g : NonceSource) : Nat → Option Signature
    | 0 => none
    | count + 1 =>
      let (nonce, g) := g.next
      match k.signWith? digest nonce with
      | some signature => some signature
      | none => go digest g count

end PrivateKey

end Runbook
