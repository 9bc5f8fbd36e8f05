import Runbook.Document.Basic
import Runbook.Number.Duration
import Runbook.Number.Quantity

/-!
This module contains the settings that a playbook runs under.
-/

namespace Runbook

structure Config where
  /-- The least gas price, in wei. A higher suggestion of the node wins. -/
  gasPrice : Nat := 8000000000
  /-- No transaction asks for more gas than this. -/
  gasLimit : Nat := 10000000
  chainId : Nat := 1
  awaitTimeout : Duration := .ofSeconds 600
deriving Repr, DecidableEq

namespace Config

def quantity (name : String) (bits : Nat) (s : Scalar) : Result Nat :=
  match Number.quantity? s.text with
  | none => fail .validation (name ++ " '" ++ s.text ++ "' is not a quantity")
  | some n =>
    if n < 2 ^ bits then pure n
    else fail .validation (name ++ " " ++ toString n ++ " is too large")

def positive (name : String) (n : Nat) : Result Nat :=
  if n = 0 then fail .validation (name ++ " must be positive") else pure n

def duration (name : String) (text : String) : Result Duration :=
  match Duration.parse? text with
  | some d => pure d
  | none => fail .validation (name ++ " '" ++ text ++ "' is not a duration")

def setting {α β : Type} (default : β) (read : α → Result β) : Option α → Result β
  | some a => read a
  | none => pure default

/--
The settings of a section. What is not set keeps its default.
-/
def ofDecl (d : ConfigDecl) : Result Config := do
  let standard : Config := {}
  let gasPrice ← setting standard.gasPrice (quantity "gasPrice" 128) d.gasPrice
  let gasLimit ← setting standard.gasLimit
    (fun s => do positive "gasLimit" (← quantity "gasLimit" 64 s)) d.gasLimit
  let chainId ← setting standard.chainId (quantity "chainID" 64) d.chainId
  let awaitTimeout ← setting standard.awaitTimeout (duration "awaitTimeout") d.awaitTimeout
  return { gasPrice, gasLimit, chainId, awaitTimeout }

def ofDecl? (d : Option ConfigDecl) : Result Config :=
  match d with
  | some d => ofDecl d
  | none => pure {}

end Config

end Runbook
