import Runbook.Signing.Key
import Runbook.Transaction.Packing

/-!
This module contains transactions: their signed form, and the address of the contract that one
creates.
-/

namespace Runbook

structure Transaction where
  nonce : Nat
  gasPrice : Nat
  gasLimit : Nat
  /-- None for a transaction that creates a contract. -/
  recipient : Option Address
  value : Nat
  data : Bytes
  chain : Nat
deriving Repr, DecidableEq

structure SignedTransaction where
  transaction : Transaction
  sender : Address
  signature : Signature
deriving Repr, DecidableEq

namespace Transaction

def fields (t : Transaction) : List Packing :=
  [.ofNat t.nonce, .ofNat t.gasPrice, .ofNat t.gasLimit,
    .bytes (t.recipient.elim [] Address.bytes), .ofNat t.value, .bytes t.data]

/--
What is signed. It holds the chain, so that the signature is worth nothing on another one.
-/
def digest (t : Transaction) : Bytes :=
  Keccak.hash (Packing.encode (.list (t.fields ++ [.ofNat t.chain, .ofNat 0, .ofNat 0])))

def sign? (t : Transaction) (key : PrivateKey) : Option SignedTransaction :=
  (key.sign? t.digest).map fun signature =>
    { transaction := t, sender := key.address, signature }

end Transaction

namespace SignedTransaction

def encode (t : SignedTransaction) : Bytes :=
  let parity := 2 * t.transaction.chain + 35 + t.signature.odd.toNat
  Packing.encode (.list (t.transaction.fields ++
    [.ofNat parity, .ofNat t.signature.r, .ofNat t.signature.s]))

def hash (t : SignedTransaction) : Bytes :=
  Keccak.hash t.encode

end SignedTransaction

def Address.create (sender : Address) (nonce : Nat) : Address :=
  .ofWord (Keccak.hash (Packing.encode (.list [.bytes sender.bytes, .ofNat nonce])))

end Runbook
