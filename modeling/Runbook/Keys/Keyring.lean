import Runbook.Keys.Keystore

/-!
This module contains keyrings: what hands out the private keys of wallets.
-/

namespace Runbook

structure Keyring (ω : Type) where
  register : Address → Path → ω → ω
  unregister : Address → Path → ω → ω
  unlock : Address → String → ω → Unlock × ω

/--
A store of keyfiles as a keyring. The keyfiles do not change.
-/
def Keystore.keyring (files : Files) : Keyring Keystore where
  register a path s := s.register a path
  unregister a path s := s.unregister a path
  unlock a password s := s.unlock files a password

end Runbook
