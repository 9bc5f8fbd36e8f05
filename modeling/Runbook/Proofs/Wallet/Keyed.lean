import Runbook.Proofs.Outcome
import Runbook.Proofs.Wallet.Keystore
import Runbook.Wallet.Declared

/-!
This module contains the keys of declared wallets. Once all wallets of a section are found sound,
each of them has a key for its own address, however many share the address, the keyfile or the
keystore.
-/

namespace Runbook

namespace Wallet

variable {ω : Type} {keyring : Keyring ω} {files : Files} {store : ω → Keystore} {t t' : Trace ω}
  {w : Wallet}

def embedded? (w : Wallet) : Option PrivateKey :=
  match w.credential with
  | .embedded key => some key
  | .keyfile _ => none

/--
The key that the wallet signs with while the store of keyfiles is `s`.
-/
def key? (w : Wallet) (s : Keystore) : Option PrivateKey :=
  match w.password with
  | some _ => s.key? w.address
  | none => w.embedded?

/--
The wallet has a key, which is the one of its address.
-/
def Keyed (w : Wallet) (s : Keystore) : Prop :=
  ∃ key, w.key? s = some key ∧ key.address = w.address

theorem key?_mono {s s' : Keystore} {key : PrivateKey} (hs : s.Extends s')
    (h : w.key? s = some key) : w.key? s' = some key := by
  unfold key? at h ⊢
  cases hpassword : w.password with
  | none =>
    rw [hpassword] at h
    exact h
  | some password =>
    rw [hpassword] at h
    exact hs w.address key h

theorem Keyed.mono {s s' : Keystore} (hs : s.Keeps s') (h : w.Keyed s) : w.Keyed s' := by
  unfold Keyed key? at h ⊢
  cases hpassword : w.password with
  | none =>
    rw [hpassword] at h
    exact h
  | some password =>
    rw [hpassword] at h
    exact hs w.address h

theorem keyed_balance (w : Wallet) (balance : Option Nat) (s : Keystore)
    : Keyed { w with balance } s ↔ w.Keyed s :=
  Iff.rfl

theorem unlock_eq_some {a : Address} {password : String} {key : PrivateKey}
    (hkeyring : keyring.IsStore files store)
    (h : unlock keyring a password t = (some key, t'))
    : (store t.world).unlock files a password = (.key key, store t'.world) := by
  rw [← hkeyring.unlock a password t.world]
  unfold unlock at h
  simp only [bind, StateT.bind, Trace.outside] at h
  cases hanswer : (keyring.unlock a password t.world).1 with
  | key k =>
    rw [hanswer] at h
    cases h
    rfl
  | unregistered =>
    rw [hanswer] at h
    cases h
  | locked path =>
    rw [hanswer] at h
    cases h

theorem signer_of_key? {key : PrivateKey} (hkeyring : keyring.IsStore files store)
    (h : w.key? (store t.world) = some key)
    : ∃ world, w.signer keyring t = (some key, { t with world }) ∧
        store world = store t.world := by
  unfold key? at h
  unfold signer
  cases hpassword : w.password with
  | none =>
    rw [hpassword] at h
    unfold embedded? at h
    cases hcredential : w.credential with
    | embedded k =>
      rw [hcredential] at h
      cases h
      exact ⟨t.world, rfl, rfl⟩
    | keyfile path =>
      rw [hcredential] at h
      cases h
  | some password =>
    rw [hpassword] at h
    have hunlock := hkeyring.unlock w.address password t.world
    rw [Keystore.unlock_of_key? h] at hunlock
    obtain ⟨hkey, hstore⟩ := Prod.mk.inj hunlock
    refine ⟨(keyring.unlock w.address password t.world).2, ?_, hstore⟩
    simp only [bind, StateT.bind, unlock, Trace.outside, hkey]
    rfl

theorem Keyed.signer (hkeyring : keyring.IsStore files store) (h : w.Keyed (store t.world))
    : ∃ key world, w.signer keyring t = (some key, { t with world }) ∧ key.address = w.address := by
  obtain ⟨key, hkey, haddress⟩ := h
  obtain ⟨world, hsigner, _⟩ := signer_of_key? hkeyring hkey
  exact ⟨key, world, hsigner, haddress⟩

section Declared

/--
An operation that leaves the world as it is.
-/
def Spares {α : Type} (a : Action (Trace ω) α) : Prop :=
  ∀ t, (a.run t).2.world = t.world

variable {α β : Type}

theorem Spares.world {a : Action (Trace ω) α} (ha : Spares a) {x : α}
    (h : a.run t = (.ok x, t')) : t'.world = t.world := by
  have hworld := ha t
  rwa [h] at hworld

theorem spares_ofResult (r : Result α) : Spares (Action.ofResult r : Action (Trace ω) α) :=
  fun _ => rfl

theorem spares_write (level : Level) (text : String)
    : Spares (Action.perform (Trace.write level text) : Action (Trace ω) Unit) :=
  fun _ => rfl

theorem spares_pure (x : α) : Spares (pure x : Action (Trace ω) α) :=
  fun _ => rfl

theorem spares_bind {a : Action (Trace ω) α} {f : α → Action (Trace ω) β} (ha : Spares a)
    (hf : ∀ x, Spares (f x)) : Spares (a >>= f) := by
  intro t
  have hworld := ha t
  rcases Action.run_bind_cases a f t with ⟨e, t', h, hbind⟩ | ⟨x, t', h, hbind⟩
  . rw [h] at hworld
    rw [hbind]
    exact hworld
  . rw [h] at hworld
    rw [hbind, hf x t']
    exact hworld

theorem spares_agreedAddress (name source : String) (found : Address) (declared : Option Address)
    : Spares (agreedAddress name source found declared : Action (Trace ω) Address) := by
  unfold agreedAddress
  split
  . exact spares_bind (spares_write _ _) fun _ => spares_pure _
  . split
    . exact spares_pure _
    . exact spares_ofResult _

theorem agreedAddress_eq_ok {name source : String} {found a : Address} {declared : Option Address}
    (h : (agreedAddress name source found declared).run t = (.ok a, t')) : a = found := by
  unfold agreedAddress at h
  split at h
  . obtain ⟨_, _, _, h⟩ := Action.exists_of_run_bind h
    exact (Action.eq_of_run_pure h).1.symm
  . split at h
    . next hagreed => exact (Action.eq_of_run_pure h).1.symm.trans hagreed
    . exact absurd h Action.run_fail_ne_ok

theorem claimKeyfile_eq_ok {a : Address} {password : String} {path : Path}
    (hkeyring : keyring.IsStore files store)
    (h : (claimKeyfile keyring a password path).run t = (.ok (), t'))
    : (store t.world).Keeps (store t'.world) ∧ (store t'.world).Opens a := by
  unfold claimKeyfile at h
  obtain ⟨_, t₁, hregister, h⟩ := Action.exists_of_run_bind h
  obtain ⟨key?, t₂, hunlock, h⟩ := Action.exists_of_run_bind h
  cases hregister
  cases key? with
  | none =>
    obtain ⟨_, _, _, h⟩ := Action.exists_of_run_bind h
    exact absurd h Action.run_fail_ne_ok
  | some key =>
    dsimp only at h
    split at h
    . next haddress =>
      obtain ⟨_, rfl⟩ := Action.eq_of_run_pure h
      have hunlock := unlock_eq_some hkeyring (Action.eq_of_run_perform hunlock)
      rw [hkeyring.register a path t.world] at hunlock
      exact Keystore.keeps_of_register hunlock haddress
    . obtain ⟨_, _, _, h⟩ := Action.exists_of_run_bind h
      exact absurd h Action.run_fail_ne_ok

theorem exists_run_of_warn {b : Prop} [Decidable b] {text : String} {a : Action (Trace ω) α} {x : α}
    (h : (if b then (do Action.perform (Trace.write .warn text); a) else a).run t = (.ok x, t'))
    : ∃ t₁, t₁.world = t.world ∧ a.run t₁ = (.ok x, t') := by
  split at h
  . obtain ⟨_, t₁, hwrite, h⟩ := Action.exists_of_run_bind h
    exact ⟨t₁, (spares_write _ _).world hwrite, h⟩
  . exact ⟨t, rfl, h⟩

theorem ofPrivateKey_eq_ok {name text : String} {d : WalletDecl} {declared : Option Address}
    (h : (ofPrivateKey name d text declared).run t = (.ok w, t'))
    : t'.world = t.world ∧ ∀ s, w.Keyed s := by
  unfold ofPrivateKey at h
  dsimp only at h
  obtain ⟨t₁, hworld₁, h⟩ := exists_run_of_warn h
  obtain ⟨t₂, hworld₂, h⟩ := exists_run_of_warn h
  split at h
  . exact absurd h Action.run_fail_ne_ok
  . next key _ =>
    obtain ⟨a, t₃, hagreed, h⟩ := Action.exists_of_run_bind h
    obtain ⟨rfl, rfl⟩ := Action.eq_of_run_pure h
    rw [(spares_agreedAddress _ _ _ _).world hagreed, hworld₂]
    refine ⟨hworld₁, fun s => ⟨key, rfl, ?_⟩⟩
    exact (agreedAddress_eq_ok hagreed).symm

def Gained (store : ω → Keystore) (t t' : Trace ω) (w : Wallet) : Prop :=
  (store t.world).Keeps (store t'.world) ∧ w.Keyed (store t'.world)

theorem Gained.of_world {t₁ : Trace ω} (hworld : t₁.world = t.world) (h : Gained store t₁ t' w)
    : Gained store t t' w := by
  unfold Gained at h ⊢
  rw [← hworld]
  exact h

theorem gained_of_claim {w' : Wallet} {password : String} {path : Path}
    (hkeyring : keyring.IsStore files store) (hpassword : w.password = some password)
    (h : (do claimKeyfile keyring w.address password path; pure w : Action (Trace ω) Wallet).run t
      = (.ok w', t'))
    : Gained store t t' w' := by
  obtain ⟨_, t₁, hclaim, h⟩ := Action.exists_of_run_bind h
  obtain ⟨rfl, rfl⟩ := Action.eq_of_run_pure h
  obtain ⟨hkeeps, key, hkey, haddress⟩ := claimKeyfile_eq_ok hkeyring hclaim
  refine ⟨hkeeps, key, ?_, haddress⟩
  unfold key?
  rw [hpassword]
  exact hkey

def ofPlace (keyring : Keyring ω) (shelf : Shelf) (name password : String)
    (declared : Option Address) (place : KeyfilePlace) : Action (Trace ω) Wallet :=
  let path := place.path shelf.base
  if !shelf.files.isFile path then
    Action.fail .validation ("keyfile " ++ path.text ++ " is not found or cannot be read")
  else do
    let stated ← Action.ofResult (Keyfile.address shelf.files path)
    let address ← agreedAddress name "keyfile" stated declared
    claimKeyfile keyring address password path
    return { address, password := some password, keystore := place.folder,
             keyfile := some place.file, credential := .keyfile path }

theorem ofPlace_eq_ok {shelf : Shelf} {name password : String} {declared : Option Address}
    {place : KeyfilePlace} (hkeyring : keyring.IsStore files store)
    (h : (ofPlace keyring shelf name password declared place).run t = (.ok w, t'))
    : Gained store t t' w := by
  unfold ofPlace at h
  dsimp only at h
  split at h
  . exact absurd h Action.run_fail_ne_ok
  . obtain ⟨stated, t₁, hstated, h⟩ := Action.exists_of_run_bind h
    obtain ⟨address, t₂, hagreed, h⟩ := Action.exists_of_run_bind h
    have hworld : t₂.world = t.world := by
      rw [(spares_agreedAddress _ _ _ _).world hagreed, (spares_ofResult _).world hstated]
    exact (gained_of_claim hkeyring rfl h).of_world hworld

theorem ofKeyfile_eq (keyring : Keyring ω) (shelf : Shelf) (name : String) (d : WalletDecl)
    (keyfile : String) (declared : Option Address)
    : ofKeyfile keyring shelf name d keyfile declared
        =
      (do
        let password ← Action.ofResult (requirePassword d)
        let place := keyfilePlace (setting d.keystore) keyfile
        if let some note := place.unused then
          Action.perform (Trace.write .warn ("wallet " ++ name ++ ": " ++ note))
        ofPlace keyring shelf name password declared place) :=
  rfl

theorem ofKeyfile_eq_ok {shelf : Shelf} {name keyfile : String} {d : WalletDecl}
    {declared : Option Address} (hkeyring : keyring.IsStore files store)
    (h : (ofKeyfile keyring shelf name d keyfile declared).run t = (.ok w, t'))
    : Gained store t t' w := by
  rw [ofKeyfile_eq] at h
  obtain ⟨password, t₁, hpassword, h⟩ := Action.exists_of_run_bind h
  apply Gained.of_world ((spares_ofResult _).world hpassword)
  dsimp only at h
  split at h
  . obtain ⟨_, t₂, hwrite, h⟩ := Action.exists_of_run_bind h
    exact (ofPlace_eq_ok hkeyring h).of_world ((spares_write _ _).world hwrite)
  . exact ofPlace_eq_ok hkeyring h

theorem spares_skipped (paths : List Path) (text : Path → String)
    : Spares (ω := ω) (forIn paths PUnit.unit fun path _ => do
        Action.perform (Trace.write .warn (text path))
        pure (ForInStep.yield PUnit.unit)) := by
  induction paths with
  | nil => exact spares_pure _
  | cons path paths ih =>
    rw [List.forIn_cons]
    apply spares_bind
    . exact spares_bind (spares_write _ _) fun _ => spares_pure _
    . intro step
      cases step with
      | done u => exact spares_pure _
      | yield u => exact ih

theorem ofKeystore_eq_ok {shelf : Shelf} {keystore : String} {d : WalletDecl}
    {declared : Option Address} (hkeyring : keyring.IsStore files store)
    (h : (ofKeystore keyring shelf d keystore declared).run t = (.ok w, t'))
    : Gained store t t' w := by
  unfold ofKeystore at h
  dsimp only at h
  split at h
  . exact absurd h Action.run_fail_ne_ok
  . next address =>
    obtain ⟨password, t₁, hpassword, h⟩ := Action.exists_of_run_bind h
    obtain ⟨r, t₂, hr, h⟩ := Action.exists_of_run_bind h
    obtain ⟨_, t₃, hskipped, h⟩ := Action.exists_of_run_bind h
    have hworld : t₃.world = t.world := by
      rw [(spares_skipped _ _).world hskipped, (spares_ofResult _).world hr,
        (spares_ofResult _).world hpassword]
    apply Gained.of_world hworld
    split at h
    . exact absurd h Action.run_fail_ne_ok
    . exact gained_of_claim hkeyring rfl h

theorem ofDecl_eq_ok {shelf : Shelf} {name : String} {d : WalletDecl}
    (hkeyring : keyring.IsStore files store)
    (h : (ofDecl keyring shelf name d).run t = (.ok w, t')) : Gained store t t' w := by
  unfold ofDecl at h
  obtain ⟨declared, t₁, hdeclared, h⟩ := Action.exists_of_run_bind h
  apply Gained.of_world ((spares_ofResult _).world hdeclared)
  split at h
  . obtain ⟨hworld, hkeyed⟩ := ofPrivateKey_eq_ok h
    unfold Gained
    rw [hworld]
    exact ⟨.refl _, hkeyed _⟩
  . exact ofKeyfile_eq_ok hkeyring h
  . exact ofKeystore_eq_ok hkeyring h
  . exact absurd h Action.run_fail_ne_ok

theorem run_located (a : Action (Trace ω) α) (place entry : String) (t : Trace ω)
    : (a.located place entry).run t
        =
      ((a.run t).1.mapError (Report.locate place entry), (a.run t).2) :=
  rfl

theorem run_located_eq_ok {a : Action (Trace ω) α} {place entry : String} {x : α}
    : (a.located place entry).run t = (.ok x, t') ↔ a.run t = (.ok x, t') := by
  rw [run_located]
  refine ⟨fun h => ?_, fun h => ?_⟩
  . obtain ⟨hresult, hstate⟩ := Prod.mk.inj h
    exact Prod.ext (Result.eq_ok_of_located hresult) hstate
  . rw [h]
    rfl

theorem keyed_of_ofDecls {shelf : Shelf} {ds : Entries WalletDecl} {ws : Wallets}
    (hkeyring : keyring.IsStore files store)
    (h : (ofDecls keyring shelf ds).run t = (.ok ws, t'))
    : (store t.world).Keeps (store t'.world) ∧ ∀ e ∈ ws, e.2.Keyed (store t'.world) := by
  unfold ofDecls at h
  induction ds generalizing t ws with
  | nil =>
    obtain ⟨rfl, rfl⟩ := Action.eq_of_run_pure h
    exact ⟨.refl _, fun e he => absurd he List.not_mem_nil⟩
  | cons d ds ih =>
    rw [List.mapM_cons] at h
    obtain ⟨e, t₁, hfirst, h⟩ := Action.exists_of_run_bind h
    obtain ⟨es, t₂, hrest, h⟩ := Action.exists_of_run_bind h
    obtain ⟨rfl, rfl⟩ := Action.eq_of_run_pure h
    obtain ⟨w, t₃, hw, hfirst⟩ := Action.exists_of_run_bind hfirst
    obtain ⟨rfl, rfl⟩ := Action.eq_of_run_pure hfirst
    obtain ⟨hgained, hkeyed⟩ := ofDecl_eq_ok hkeyring (run_located_eq_ok.mp hw)
    obtain ⟨hkeeps, hall⟩ := ih hrest
    refine ⟨hgained.trans hkeeps, ?_⟩
    rw [List.forall_mem_cons]
    exact ⟨hkeyed.mono hkeeps, hall⟩

end Declared

end Wallet

end Runbook
