import Runbook.Fault
import Runbook.Json.Basic
import Runbook.Transaction.Basic

/-!
This module contains what nodes are asked and what they answer.
-/

namespace Runbook

abbrev Hash := Bytes

def Hash.text (h : Hash) : String :=
  Text.hexPrefixed h

structure ViewCall where
  sender : Option Address
  recipient : Address
  data : Bytes
deriving Repr, DecidableEq

structure Payload where
  recipient : Option Address
  value : Nat
  data : Bytes := []
deriving Repr, DecidableEq

structure Draft where
  sender : Address
  nonce : Nat
  gasPrice : Nat
  chain : Nat
  payload : Payload
deriving Repr, DecidableEq

def Draft.withGas (d : Draft) (gasLimit : Nat) : Transaction :=
  { nonce := d.nonce, gasPrice := d.gasPrice, gasLimit, recipient := d.payload.recipient,
    value := d.payload.value, data := d.payload.data, chain := d.chain }

inductive Status where
  | pending
  | settled
deriving Repr, DecidableEq

structure Receipt where
  success : Bool
  block : Option Nat
  contract : Option Address
deriving Repr, DecidableEq

inductive Request where
  | view (call : ViewCall)
  | send (t : SignedTransaction)
  | balance (account : Address)
  | nonce (account : Address)
  | gasPrice
  | estimate (draft : Draft)
  | status (hash : Hash)
  | receipt (hash : Hash)
  | rpc (method : String) (params : List Json)

/--
The answers to a request, if it does not fail. A transaction that the node does not know has no
status, one that is not mined no receipt.
-/
def Request.Answer : Request → Type
  | view _ => Bytes
  | send _ => Hash
  | balance _ => Nat
  | nonce _ => Nat
  | gasPrice => Nat
  | estimate _ => Nat
  | status _ => Option Status
  | receipt _ => Option Receipt
  | rpc _ _ => Json

/--
A node as seen through `ω`, the state of everything outside the program.
-/
structure Node (ω : Type) where
  ask : (r : Request) → ω → Result r.Answer × ω
  /-- The nanoseconds that an answer takes. -/
  delay : Request → ω → Nat := fun _ _ => 0

structure Exchange where
  time : Nat
  request : Request
  answer : Result request.Answer

end Runbook
