import Runbook.Keys.Keyring
import Runbook.Node.Trace
import Runbook.Param.Reference
import Runbook.Entries

/-!
This module contains the wallets of a playbook, and the keys that they sign with.
-/

namespace Runbook

inductive Credential where
  /-- A key that stands in the playbook. -/
  | embedded (key : PrivateKey)
  /-- A keyfile that the wallet has registered with the keyring. -/
  | keyfile (path : Path)

structure Wallet where
  address : Address
  password : Option String := none
  keystore : Option Path := none
  keyfile : Option Path := none
  credential : Credential
  /-- The balance that was fetched last. -/
  balance : Option Nat := none

namespace Wallet

variable {ω : Type}

/--
Ask the keyring for a key. A registered keyfile that does not open leaves a warning.
-/
def unlock (keyring : Keyring ω) (a : Address) (password : String) :
    StateM (Trace ω) (Option PrivateKey) := do
  match ← Trace.outside (keyring.unlock a password) with
  | .key k => return some k
  | .unregistered => return none
  | .locked path =>
    Trace.write .warn ("unable to decrypt keyfile " ++ path.text)
    return none

def signer (w : Wallet) (keyring : Keyring ω) : StateM (Trace ω) (Option PrivateKey) := do
  let unlocked ← match w.password with
    | some password => unlock keyring w.address password
    | none => pure none
  match unlocked, w.credential with
  | some k, _ => return some k
  | none, .embedded k => return some k
  | none, .keyfile _ => return none

def field? (w : Wallet) : WalletField → Option Value
  | .address => some (.address w.address)
  | .balance => w.balance.map Value.uint256
  | .keystore => w.keystore.map fun p => .string p.text
  | .keyfile => w.keyfile.map fun p => .string p.text

end Wallet

abbrev Wallets := Entries Wallet

namespace Wallets

def directory (ws : Wallets) : Directory where
  contains name := Entries.contains ws name
  field? name field := (Entries.find? ws name).bind (·.field? field)

def addressOf (ws : Wallets) (name : String) : Result Address :=
  match Entries.find? ws name with
  | some w => pure w.address
  | none => fail .resolution ("unknown wallet '" ++ name ++ "'")

def setBalance (ws : Wallets) (name : String) (balance : Nat) : Wallets :=
  Entries.update ws name fun w => { w with balance := some balance }

end Wallets

end Runbook
