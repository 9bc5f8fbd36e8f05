import Runbook.Digest.Sha256

/-!
This module contains keyed hashing with SHA-256 and the stretching of passwords by it.
-/

namespace Runbook

/--
A hashing key, as the states after the key's own block. The inner state goes on with the message,
the outer one with the inner digest.
-/
structure Hmac where
  inner : Sha256.State
  outer : Sha256.State

namespace Hmac

def ofKey (key : Bytes) : Hmac :=
  let key := if key.length > 64 then Sha256.hash key else key
  let block := key ++ List.replicate (64 - key.length) 0
  { inner := Sha256.start (block.map (· ^^^ 0x36)), outer := Sha256.start (block.map (· ^^^ 0x5c)) }

def sign (h : Hmac) (message : Bytes) : Bytes :=
  Sha256.finish h.outer 64 (Sha256.finish h.inner 64 message)

/--
The exclusive or of `count` signatures, each signing the one before; `last` is the newest of them
and `sum` what they came to.
-/
def chain (h : Hmac) (last sum : Bytes) : Nat → Bytes
  | 0 => sum
  | count + 1 =>
    let next := h.sign last
    chain h next (List.zipWith (· ^^^ ·) sum next) count

def stretchBlock (h : Hmac) (salt : Bytes) (iterations index : Nat) : Bytes :=
  let first := h.sign (salt ++ (bytesOfIndex index))
  chain h first first (iterations - 1)
where
  bytesOfIndex (index : Nat) : Bytes :=
    Sha256.bytesOfWord (UInt32.ofNat index)

def stretch (password salt : Bytes) (iterations size : Nat) : Bytes :=
  let h := ofKey password
  let blocks := (size + 31) / 32
  ((List.range blocks).flatMap fun i => stretchBlock h salt iterations (i + 1)).take size

end Hmac

end Runbook
