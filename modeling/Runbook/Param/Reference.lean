import Runbook.Param.Value

/-!
This module contains references to wallets: the sending wallet, or a field of a named one.
-/

namespace Runbook

inductive WalletField where
  | address
  | balance
  | keystore
  | keyfile
deriving Repr, DecidableEq

namespace WalletField

def text : WalletField → String
  | address => "address"
  | balance => "balance"
  | keystore => "keystore"
  | keyfile => "keyfile"

def parse (name : String) : Result WalletField :=
  match name with
  | "address" => pure address
  | "balance" => pure balance
  | "keystore" => pure keystore
  | "keyfile" => pure keyfile
  | _ =>
    fail .validation ("unknown wallet field '" ++ name
      ++ "' (expected address, balance, keystore or keyfile)")

end WalletField

structure Directory where
  contains : String → Bool
  field? : String → WalletField → Option Value

inductive WalletRef where
  /-- The address of whichever wallet sends the command. -/
  | sender
  | field (wallet : String) (field : WalletField)
deriving Repr, DecidableEq

namespace WalletRef

def parse (text : String) : Result WalletRef :=
  match text.toList with
  | ['@'] | ['@', '@'] => pure sender
  | '@' :: body => do
    let wallet := body.takeWhile (· ≠ '.')
    let field ←
      match body.dropWhile (· ≠ '.') with
      | _ :: name => WalletField.parse (String.ofList name)
      | [] => pure .address
    if wallet.isEmpty then
      fail .validation ("wallet reference '" ++ text ++ "' has no wallet name")
    else
      return .field (String.ofList wallet) field
  | _ => fail .validation ("'" ++ text ++ "' is not a wallet reference")

def value (wallets : Directory) (sender? : Option Address) : WalletRef → Result Value
  | sender =>
    match sender? with
    | some a => pure (.address a)
    | none =>
      fail .resolution "wallet placeholder used but the command has no sending wallet"
  | field wallet name =>
    match wallets.field? wallet name with
    | some v => pure v
    | none =>
      fail .resolution (name.text ++ " of wallet '" ++ wallet ++ "' is not available")

end WalletRef

def isWalletRef (text : String) : Bool :=
  text.toList.head? == some '@'

end Runbook
