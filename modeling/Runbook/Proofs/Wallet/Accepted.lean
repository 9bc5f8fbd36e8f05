import Runbook.Proofs.Keys.Sealed
import Runbook.Proofs.Wallet.Keyed

/-!
This module contains wallets that are found sound: a keyfile that was written for a key gives a
wallet of the key's address, whether it is named or searched for, and so does the key itself.
-/

namespace Runbook

def Keystore.holding (a : Address) (path : Path) (key : PrivateKey) : Keystore where
  paths := [(a, path)]
  keys := [(a, key)]

theorem Keystore.unlock_register {files : Files} {a : Address} {path : Path} {key : PrivateKey}
    {password : String} {s : Keystore} (hopen : Keyfile.open? files path password = some key)
    (hs : s = {} ∨ s = holding a path key)
    : (s.register a path).unlock files a password = (.key key, holding a path key) := by
  unfold holding at hs ⊢
  rcases hs with rfl | rfl
  . simp [register, unlock, path?, key?, remove, hopen]
  . simp [register, unlock, path?, key?, remove, samePath]

namespace Wallet

variable {files : Files} {base : Path} {name password : String} {key : PrivateKey}
  {t : Trace Keystore} {s : Keystore} {d : WalletDecl}

theorem run_claimKeyfile {a : Address} {path : Path}
    (h : (t.world.register a path).unlock files a password = (.key key, s))
    (hkey : key.address = a)
    : (claimKeyfile (Keystore.keyring files) a password path).run t
        =
      (.ok (), { t with world := s }) := by
  have hunlock : (Action.perform (unlock (Keystore.keyring files) a password)).run
      { t with world := t.world.register a path } = (.ok (some key), { t with world := s }) := by
    rw [Action.run_perform]
    unfold unlock
    simp only [bind, StateT.bind, Trace.outside, Keystore.keyring, h]
    rfl
  unfold claimKeyfile
  refine (Action.run_bind_ok rfl).trans ?_
  dsimp only
  refine (Action.run_bind_ok hunlock).trans ?_
  dsimp only
  rw [if_pos hkey]
  rfl

theorem run_ofPlace {place : KeyfilePlace} {password' : String}
    (hread : files.read? (place.path base) = some (Keyfile.ofKey key password').write)
    (hunlock : (t.world.register key.address (place.path base)).unlock files key.address password
      = (.key key, s))
    : ∃ t', t'.world = s ∧
        (ofPlace (Keystore.keyring files) ⟨files, base⟩ name password none place).run t
          =
        (.ok { address := key.address, password := some password, keystore := place.folder,
               keyfile := some place.file, credential := .keyfile (place.path base) }, t') := by
  have hfile : files.isFile (place.path base) = true := by
    unfold Files.isFile
    rw [hread]
    rfl
  have hstated := Keyfile.address_ofKey hread
  have hclaim (log : List LogLine) := run_claimKeyfile (t := { t with log }) hunlock rfl
  unfold ofPlace
  dsimp only
  rw [hfile, hstated]
  refine ⟨_, ?_, (Action.run_bind_ok rfl).trans ((Action.run_bind_ok rfl).trans
    ((Action.run_bind_ok (hclaim _)).trans rfl))⟩
  rfl

theorem run_ofKeystore {keystore password' : String} {path : Path}
    (hfolder : files.inFolder? (base.join ⟨keystore⟩) = some [path])
    (hread : files.read? path = some (Keyfile.ofKey key password').write)
    (hpassword : requirePassword d = .ok password)
    (hunlock : (t.world.register key.address path).unlock files key.address password
      = (.key key, s))
    : (ofKeystore (Keystore.keyring files) ⟨files, base⟩ d keystore (some key.address)).run t
        =
      (.ok { address := key.address, password := some password,
             keystore := some (base.join ⟨keystore⟩),
             keyfile := path.fileName?.map Path.mk, credential := .keyfile path },
        { t with world := s }) := by
  have hfound : Keyfile.find files (base.join ⟨keystore⟩) key.address = .ok (some path, []) := by
    unfold Keyfile.find
    rw [hfolder]
    dsimp only
    unfold Keyfile.search
    rw [Keyfile.address_ofKey hread]
    dsimp only
    rw [if_pos rfl]
    rfl
  unfold ofKeystore
  dsimp only
  rw [hpassword, hfound]
  refine (Action.run_bind_ok rfl).trans ?_
  refine (Action.run_bind_ok rfl).trans ?_
  refine (Action.run_bind_ok rfl).trans ?_
  exact (Action.run_bind_ok (run_claimKeyfile hunlock rfl)).trans rfl

theorem run_ofPrivateKey {ω : Type} {text : String} {t : Trace ω}
    (hkey : PrivateKey.parse? text = some key) (hpassword : setting d.password = none)
    (hkeyfile : setting d.keyfile = none)
    : ∃ t', t'.world = t.world ∧
        (ofPrivateKey name d text none).run t
          =
        (.ok { address := key.address, credential := .embedded key }, t') := by
  unfold ofPrivateKey
  dsimp only
  rw [hpassword, hkeyfile, hkey]
  refine ⟨_, ?_, (Action.run_bind_ok rfl).trans rfl⟩
  rfl

theorem declaredAddress_text (a : Address) : declaredAddress (some a.text) = .ok (some a) := by
  have hchars := Text.toList_hexPrefixed a.bytes
  have hlength : a.text.toList.length = 42 := by
    unfold Address.text
    rw [hchars, List.length_cons, List.length_cons, Text.length_hexChars, a.length_bytes]
  have htrim : Text.trim a.text = a.text := Text.trim_hexPrefixed a.bytes
  unfold declaredAddress
  rw [Option.map_some, Option.getD_some, htrim]
  split
  . next heq =>
    rw [heq] at hlength
    cases hlength
  . next heq =>
    rw [heq] at hlength
    cases hlength
  . rw [Address.parse?_text]
    rfl

theorem run_ofDecls_cons {ω : Type} {keyring : Keyring ω} {shelf : Shelf} {d : WalletDecl}
    {ds : Entries WalletDecl} {w : Wallet} {ws : Wallets} {t t₁ t' : Trace ω}
    (hfirst : (ofDecl keyring shelf name d).run t = (.ok w, t₁))
    (hrest : (ofDecls keyring shelf ds).run t₁ = (.ok ws, t'))
    : (ofDecls keyring shelf ((name, d) :: ds)).run t = (.ok ((name, w) :: ws), t') := by
  have hlocated : ((ofDecl keyring shelf name d).located "WALLETS" name).run t = (.ok w, t₁) :=
    run_located_eq_ok.mpr hfirst
  unfold ofDecls at hrest ⊢
  rw [List.mapM_cons]
  refine (Action.run_bind_ok ((Action.run_bind_ok hlocated).trans rfl)).trans ?_
  exact (Action.run_bind_ok hrest).trans rfl

end Wallet

end Runbook
