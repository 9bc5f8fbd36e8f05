import Runbook.Keys.Keyfile

/-!
This module contains the store of keyfiles that wallets have registered, and of the keys that were
decrypted from them.
-/

namespace Runbook

inductive Unlock where
  | key (k : PrivateKey)
  /-- No keyfile is registered for the address. -/
  | unregistered
  /-- The registered keyfile does not open. -/
  | locked (path : Path)

def Unlock.key? : Unlock → Option PrivateKey
  | key k => some k
  | _ => none

structure Keystore where
  paths : List (Address × Path) := []
  keys : List (Address × PrivateKey) := []

namespace Keystore

variable {α : Type}

def remove (entries : List (Address × α)) (a : Address) : List (Address × α) :=
  entries.filter (·.1 != a)

def path? (s : Keystore) (a : Address) : Option Path :=
  s.paths.lookup a

def key? (s : Keystore) (a : Address) : Option PrivateKey :=
  s.keys.lookup a

def samePath (p q : Path) : Bool :=
  p.names == q.names

/--
Register a keyfile. A key that came out of another one is forgotten.
-/
def register (s : Keystore) (a : Address) (path : Path) : Keystore :=
  { paths := (a, path) :: remove s.paths a
    keys := if (s.path? a).any (samePath path) then s.keys else remove s.keys a }

def unregister (s : Keystore) (a : Address) (path : Path) : Keystore :=
  if (s.path? a).any (samePath path) then
    { paths := remove s.paths a, keys := remove s.keys a }
  else s

/--
The key of an address. One that was opened before needs no password.
-/
def unlock (files : Files) (s : Keystore) (a : Address) (password : String) : Unlock × Keystore :=
  match s.key? a with
  | some k => (.key k, s)
  | none =>
    match s.path? a with
    | none => (.unregistered, s)
    | some path =>
      match Keyfile.open? files path password with
      | some k => (.key k, { s with keys := (a, k) :: s.keys })
      | none => (.locked path, s)

end Keystore

end Runbook
