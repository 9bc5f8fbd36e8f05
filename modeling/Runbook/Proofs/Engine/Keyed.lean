import Runbook.Proofs.Engine.Reached
import Runbook.Proofs.Wallet.Accepted

/-!
This module contains the keys that transactions are signed with. While nothing but a host's keyring
uses the store of keyfiles, every wallet that was found sound keeps a key for its own address, and
signs with it.
-/

namespace Runbook

variable {ω : Type}

/--
The host's keyring is the store of keyfiles that `store` finds in the world, and its node leaves
this store alone.
-/
structure Host.Guards (host : Host ω) (files : Files) (store : ω → Keystore) : Prop where
  keyring : host.keyring.IsStore files store
  node : ∀ r w, store (host.node.ask r w).2 = store w

def Transaction.signedBy (t : Transaction) (key : PrivateKey) : Result SignedTransaction :=
  (t.sign? key).elim (fail .signer "failed to sign transaction") pure

theorem Entries.exists_of_mem_update {α : Type} {es : Entries α} {name : String} {f : α → α}
    {e : String × α} (h : e ∈ es.update name f) : ∃ e' ∈ es, e.2 = e'.2 ∨ e.2 = f e'.2 := by
  obtain ⟨e', he', rfl⟩ := List.mem_map.mp h
  refine ⟨e', he', ?_⟩
  dsimp only
  split
  . exact .inr rfl
  . exact .inl rfl

theorem Entries.mem_of_find? {α : Type} {es : Entries α} {name : String} {v : α}
    (h : es.find? name = some v) : (name, v) ∈ es := by
  induction es with
  | nil => cases h
  | cons e es ih =>
    rw [find?_cons] at h
    split at h
    . next heq =>
      cases h
      rw [heq]
      exact List.mem_cons_self ..
    . exact List.mem_cons_of_mem _ (ih h)

namespace Session

variable {host : Host ω} {files : Files} {store : ω → Keystore} {σ σ' : Session ω} {w : Wallet}
  {key : PrivateKey}

/--
Each wallet of the plan has the key of its own address.
-/
def Keyed (store : ω → Keystore) (σ : Session ω) : Prop :=
  ∀ e ∈ σ.plan.wallets, e.2.Keyed (store σ.trace.world)

/--
The sessions that one gets to by what hosts do that guard the store of keyfiles, and by whatever
happens besides that leaves the store as it is.
-/
inductive Continues (files : Files) (store : ω → Keystore) (σ : Session ω) : Session ω → Prop where
  | refl : Continues files store σ σ
  | event {σ' : Session ω} (h : Continues files store σ σ') {host : Host ω}
      (hhost : host.Guards files store) (e : Event) : Continues files store σ (σ'.after host e)
  | outside {σ' : Session ω} (h : Continues files store σ σ') (trace : Trace ω)
      (htrace : store trace.world = store σ'.trace.world)
      : Continues files store σ { σ' with trace }

theorem Continues.trans {σ'' : Session ω} (h : Continues files store σ σ')
    (h' : Continues files store σ' σ'') : Continues files store σ σ'' := by
  induction h' with
  | refl => exact h
  | event _ hhost e ih => exact .event ih hhost e
  | outside _ trace htrace ih => exact .outside ih trace htrace

theorem Continues.of_runs {Allowed : Session ω → Event → Prop} (hhost : host.Guards files store)
    (h : Runs host Allowed σ σ') : Continues files store σ σ' := by
  induction h with
  | nil => exact .refl
  | cons e _ _ ih => exact (Continues.event .refl hhost e).trans ih

theorem continues_visit {observe : StepOutcome → ω → ω} (hhost : host.Guards files store)
    (hobserve : ∀ o w, store (observe o w) = store w) (target : String) (args : List String)
    (position : Nat) (s : Step) (σ : Session ω)
    : Continues files store σ (visit host observe target args position s σ).2 := by
  obtain ⟨text, hvisit⟩ := run_visit host observe target args position s σ
  rw [hvisit]
  refine .outside ?_ _ (hobserve _ _)
  exact .trans (.event .refl hhost (.log .info text)) (.of_runs hhost (follows_runStep s args _))

theorem continues_runSteps {observe : StepOutcome → ω → ω} (hhost : host.Guards files store)
    (hobserve : ∀ o w, store (observe o w) = store w) (target : String) (args : List String)
    (position : Nat) (steps : List Step) (σ : Session ω)
    : Continues files store σ (runSteps host observe target args position steps σ).2 := by
  apply runSteps_relates (R := Continues files store) (P := fun _ => True)
  . exact fun _ => .refl
  . exact fun h h' => h.trans h'
  . exact fun _ level text => .event .refl hhost (.log level text)
  . exact fun _ _ => trivial
  . exact fun s _ position σ _ => continues_visit hhost hobserve target args position s σ
  . trivial

theorem Continues.command (h : Continues files store σ σ') (hhost : host.Guards files store)
    (name : String) (args : List String)
    : Continues files store σ ((runCommand host name args).run σ').2 :=
  h.trans (.of_runs hhost (follows_runCommand name args σ'))

theorem Continues.target {observe : StepOutcome → ω → ω} (h : Continues files store σ σ')
    (hhost : host.Guards files store) (hobserve : ∀ o w, store (observe o w) = store w)
    (name : String) (args : List String)
    : Continues files store σ ((runTarget host observe name args).run σ').2 := by
  apply h.trans
  exact runTarget_cases .refl fun _ _ => continues_runSteps hhost hobserve ..

theorem extends_after (hhost : host.Guards files store) (σ : Session ω) (e : Event)
    : (store σ.trace.world).Extends (store (σ.after host e).trace.world) := by
  cases e with
  | ask r =>
    have hstore : store (σ.after host (.ask r)).trace.world = store σ.trace.world :=
      hhost.node r σ.trace.world
    rw [hstore]
    exact .refl _
  | unlock a password =>
    have hunlock := congrArg Prod.snd (hhost.keyring.unlock a password σ.trace.world)
    have hstore : store (σ.after host (.unlock a password)).trace.world
        = ((store σ.trace.world).unlock files a password).2 := hunlock
    rw [hstore]
    exact Keystore.extends_unlock files _ a password
  | _ => exact .refl _

theorem keyed_after (hhost : host.Guards files store) (e : Event) (h : σ.Keyed store)
    : (σ.after host e).Keyed store := by
  have hkeeps := (extends_after hhost σ e).keeps
  intro entry hentry
  have hwallet : ∃ entry' ∈ σ.plan.wallets, ∃ balance,
      entry.2 = { entry'.2 with balance } := by
    cases e with
    | balance name balance =>
      have hentry : entry ∈ σ.plan.wallets.setBalance name balance := hentry
      obtain ⟨entry', hmem, heq | heq⟩ := Entries.exists_of_mem_update hentry
      . exact ⟨entry', hmem, _, heq⟩
      . exact ⟨entry', hmem, _, heq⟩
    | _ => exact ⟨entry, hentry, _, rfl⟩
  obtain ⟨entry', hmem, balance, heq⟩ := hwallet
  rw [heq, Wallet.keyed_balance]
  exact (h entry' hmem).mono hkeeps

theorem Continues.keyed (h : Continues files store σ σ') (hσ : σ.Keyed store)
    : σ'.Keyed store := by
  induction h with
  | refl => exact hσ
  | event _ hhost e ih => exact keyed_after hhost e ih
  | outside _ trace htrace ih =>
    intro entry hentry
    rw [htrace]
    exact ih entry hentry

theorem Runs.wallet_key? {Allowed : Session ω → Event → Prop} (hhost : host.Guards files store)
    (h : Runs host Allowed σ σ') (hkey : w.key? (store σ.trace.world) = some key)
    : w.key? (store σ'.trace.world) = some key := by
  induction h with
  | nil => exact hkey
  | cons e _ _ ih => exact ih (w.key?_mono (extends_after hhost _ e) hkey)

def signWith (host : Host ω) (w : Wallet) (key : PrivateKey) (t : Transaction)
    : Action (Session ω) SignedTransaction := do
  let _ ← Action.perform (onTrace (w.signer host.keyring))
  Action.ofResult (t.signedBy key)

def submitWith (host : Host ω) (w : Wallet) (key : PrivateKey) (sender : Address)
    (payload : Payload) (gasPrice : Nat) : Action (Session ω) (Hash × Nat) := do
  let nonce ← ask host (.nonce sender)
  let chain := (← get).plan.config.chainId
  let draft : Draft := { sender, nonce, gasPrice, chain, payload }
  let limit ← Action.perform (gasLimit host draft)
  let signed ← signWith host w key (draft.withGas limit)
  let hash ← (ask host (.send signed)).attach
    ("broadcasting transaction " ++ Hash.text signed.hash)
  return (hash, nonce)

theorem run_perform_signer (hhost : host.Guards files store)
    (hkey : w.key? (store σ.trace.world) = some key)
    : ∃ σ', (Action.perform (onTrace (w.signer host.keyring))).run σ = (.ok (some key), σ') := by
  obtain ⟨world, hsigner, _⟩ := Wallet.signer_of_key? hhost.keyring hkey
  refine ⟨{ σ with trace := { σ.trace with world } }, ?_⟩
  rw [Action.run_perform]
  unfold onTrace
  rw [hsigner]

theorem run_sign_of_key? {name : String} (hhost : host.Guards files store)
    (hw : Entries.find? σ.plan.wallets name = some w)
    (hkey : w.key? (store σ.trace.world) = some key) (haddress : key.address = w.address)
    (t : Transaction)
    : (sign host name t).run σ = (signWith host w key t).run σ := by
  obtain ⟨σ', hsigner⟩ := run_perform_signer hhost hkey
  have hsender : ∀ signed, t.sign? key = some signed → signed.sender = w.address :=
    fun _ h => (eq_of_sign? h).2.trans haddress
  unfold sign signWith Transaction.signedBy
  -- The signing is hidden, so that no match on what it comes to is reduced by computing it.
  obtain ⟨sign?, hsign?⟩ : ∃ f, f = t.sign? := ⟨_, rfl⟩
  rw [← hsign?] at hsender ⊢
  refine (Action.run_bind_ok (Action.run_get σ)).trans ?_
  rw [hw]
  refine (Action.run_bind_ok hsigner).trans ?_
  refine Eq.trans ?_ (Action.run_bind_ok hsigner).symm
  dsimp only
  split
  . next signed hsigned =>
    rw [if_pos (hsender signed hsigned), hsigned]
    rfl
  . next hunsigned =>
    rw [hunsigned]
    rfl

theorem run_submit_of_key? {name : String} (hhost : host.Guards files store)
    (hw : Entries.find? σ.plan.wallets name = some w)
    (hkey : w.key? (store σ.trace.world) = some key) (haddress : key.address = w.address)
    (sender : Address) (payload : Payload) (price : Nat)
    : (submit host name sender payload price).run σ
        =
      (submitWith host w key sender payload price).run σ := by
  unfold submit submitWith
  apply Action.run_bind_congr
  intro nonce σ₁ hnonce
  have hruns₁ : Runs host Signing σ σ₁ := (follows_ask fun _ => trivial).runs hnonce
  apply Action.run_bind_congr
  intro σ₂ σ₃ hget
  cases hget
  apply Action.run_bind_congr
  intro limit σ₂ hlimit
  have hruns₂ : Runs host Signing σ₁ σ₂ := (follows_perform (follows_gasLimit _)).runs hlimit
  have hruns := hruns₁.trans hruns₂
  apply Action.run_bind_of_run_eq
  apply run_sign_of_key? hhost _ (Runs.wallet_key? hhost hruns hkey) haddress
  rw [hruns.plan_of_signing]
  exact hw

/--
A transaction of the wallet `name` that was signed with the wallet's own key, as its signer handed
it out on the way from the session `σ`.
-/
def SignedFor (files : Files) (store : ω → Keystore) (host : Host ω) (σ : Session ω) (name : String)
    (signed : SignedTransaction) : Prop :=
  ∃ σ₁ w key,
    Continues files store σ σ₁ ∧
    Entries.find? σ₁.plan.wallets name = some w ∧
    (w.signer host.keyring σ₁.trace).1 = some key ∧
    key.address = w.address ∧
    σ.plan.wallets.addressOf name = .ok w.address ∧
    signed.transaction.sign? key = some signed

theorem signedFor_of_prepare {c : WriteCommand} {args : List String} {r : Ready}
    (hhost : host.Guards files store) (h : (prepare host c args).run σ = (.ok r, σ'))
    : SignedFor files store host σ c.wallet r.signed := by
  obtain ⟨σ₁, t, hruns, hsign⟩ := sign_of_prepare h
  obtain ⟨w, key, hw, hkey, haddress, hsigned⟩ := sign_eq_ok hsign
  rw [← (eq_of_sign? hsigned).1] at hsigned
  refine ⟨σ₁, w, key, .of_runs hhost hruns, hw, hkey, haddress, ?_, hsigned⟩
  rw [← hruns.like.wallets]
  unfold Wallets.addressOf
  rw [hw]
  rfl

/--
Once a section of wallets is found sound, every wallet of it has a signer, whose key is the one of
the wallet's address. However a session with these wallets goes on, submitting a transaction never
comes to a missing key, and what is broadcast was signed with the key of the wallet it is sent from.
-/
theorem runWrite_keyed {keyring : Keyring ω} {shelf : Shelf} {ds : Entries WalletDecl}
    {ws : Wallets} {t t' : Trace ω} (hkeyring : keyring.IsStore files store)
    (hvalid : (Wallet.ofDecls keyring shelf ds).run t = (.ok ws, t'))
    : (∀ e ∈ ws, ∃ key,
        (e.2.signer keyring t').1 = some key ∧
        key.address = e.2.address) ∧
      ∀ σ σ' : Session ω,
        σ.plan.wallets = ws →
        store σ.trace.world = store t'.world →
        Continues files store σ σ' →
        ∀ host : Host ω, host.Guards files store →
          (∀ name w, Entries.find? σ'.plan.wallets name = some w → ∃ key,
            (w.signer host.keyring σ'.trace).1 = some key ∧
            key.address = w.address ∧
            ∀ sender payload price,
              (submit host name sender payload price).run σ'
                =
              (submitWith host w key sender payload price).run σ') ∧
          ∀ (c : WriteCommand) (args : List String), ∃ new,
            (runWrite host c args σ').2.trace.exchanges = new ++ σ'.trace.exchanges ∧
            ∀ signed answer, (signed, answer) ∈ broadcasts new →
              SignedFor files store host σ' c.wallet signed := by
  have hall := (Wallet.keyed_of_ofDecls hkeyring hvalid).2
  refine ⟨?_, ?_⟩
  . intro e he
    obtain ⟨key, _, hsigner, haddress⟩ := (hall e he).signer hkeyring
    exact ⟨key, congrArg Prod.fst hsigner, haddress⟩
  . intro σ σ' hwallets hstore hσ' host hhost
    have hkeyed : σ'.Keyed store := by
      apply hσ'.keyed
      intro e he
      rw [hstore]
      exact hall e (hwallets ▸ he)
    refine ⟨?_, ?_⟩
    . intro name w hw
      obtain ⟨key, hkey, haddress⟩ := hkeyed _ (Entries.mem_of_find? hw)
      obtain ⟨_, hsigner, _⟩ := Wallet.signer_of_key? hhost.keyring hkey
      refine ⟨key, congrArg Prod.fst hsigner, haddress, ?_⟩
      exact run_submit_of_key? hhost hw hkey haddress
    . intro c args
      obtain ⟨new, hnew, hprepared⟩ := exists_signed host c args σ'
      refine ⟨new, hnew, ?_⟩
      intro signed answer hmem
      split at hprepared
      . rw [hprepared] at hmem
        cases hmem
      . next r σ₁ hprepare =>
        obtain ⟨⟨answer', hbroadcasts⟩, _⟩ := hprepared
        rw [hbroadcasts] at hmem
        obtain ⟨rfl, _⟩ := Prod.mk.inj (List.mem_singleton.mp hmem)
        exact signedFor_of_prepare hhost hprepare

def vaultPath : Path :=
  ⟨"keys/alice.json"⟩

def vaultFiles : Files where
  contents := [(["keys", "alice.json"], (Keyfile.ofKey aliceKey "secret").write)]

def vaultHost : Host Keystore where
  node := { ask := fun _ w => (.error (.ofNote .network "no answer"), w) }
  keyring := Keystore.keyring vaultFiles
  policy := {}

theorem guards_vault : vaultHost.Guards vaultFiles id :=
  ⟨Keystore.isStore_keyring vaultFiles, fun _ _ => rfl⟩

def vaultDecls : Entries WalletDecl :=
  [("alice", { keyfile := some "keys/alice.json", password := some "secret" }),
    ("bob",
      { privkey := some "0000000000000000000000000000000000000000000000000000000000000001" }),
    ("carol",
      { keystore := some "keys", password := some "secret",
        address := some aliceKey.address.text })]

def vaultWallets : Wallets :=
  [("alice",
      { address := aliceKey.address, password := some "secret", keyfile := some vaultPath,
        credential := .keyfile vaultPath }),
    ("bob", alice),
    ("carol",
      { address := aliceKey.address, password := some "secret", keystore := some ⟨"keys"⟩,
        keyfile := some ⟨"alice.json"⟩, credential := .keyfile vaultPath })]

theorem read?_vault
    : vaultFiles.read? vaultPath = some (Keyfile.ofKey aliceKey "secret").write := by
  have hplace : vaultFiles.locate? vaultPath = some ["keys", "alice.json"] := by decide +kernel
  unfold Files.read?
  rw [hplace]
  rfl

theorem exists_vault
    : ∃ t',
        (Wallet.ofDecls vaultHost.keyring ⟨vaultFiles, ⟨""⟩⟩ vaultDecls).run { world := {} }
          =
        (.ok vaultWallets, t') := by
  have hopen := Keyfile.open?_ofKey read?_vault
  obtain ⟨t₁, hworld₁, halice⟩ := @Wallet.run_ofPlace vaultFiles ⟨""⟩ "alice" "secret" aliceKey
    { world := {} } (.holding aliceKey.address vaultPath aliceKey)
    { folder := none, file := vaultPath } "secret" read?_vault
    (Keystore.unlock_register hopen (.inl rfl))
  obtain ⟨t₂, hworld₂, hbob⟩ := @Wallet.run_ofPrivateKey "bob" aliceKey
    { privkey := some "0000000000000000000000000000000000000000000000000000000000000001" } Keystore
    "0000000000000000000000000000000000000000000000000000000000000001" t₁
    (by decide +kernel) rfl rfl
  have hcarol := @Wallet.run_ofKeystore vaultFiles ⟨""⟩ "secret" aliceKey t₂
    (.holding aliceKey.address vaultPath aliceKey)
    { keystore := some "keys", password := some "secret", address := some aliceKey.address.text }
    "keys" "secret" vaultPath rfl read?_vault rfl
    (Keystore.unlock_register hopen (.inr (hworld₂.trans hworld₁)))
  have hdeclared := Wallet.declaredAddress_text aliceKey.address
  refine ⟨{ t₂ with world := .holding aliceKey.address vaultPath aliceKey }, ?_⟩
  apply Wallet.run_ofDecls_cons
  . exact (Action.run_bind_ok rfl).trans ((Action.run_bind_ok rfl).trans halice)
  apply Wallet.run_ofDecls_cons
  . exact (Action.run_bind_ok rfl).trans hbob
  apply Wallet.run_ofDecls_cons _ rfl
  unfold Wallet.ofDecl
  dsimp only
  rw [hdeclared]
  exact (Action.run_bind_ok rfl).trans hcarol

theorem runWrite_vault
    : ∃ σ : Session Keystore,
        σ.plan.wallets = vaultWallets ∧
        (∀ e ∈ vaultWallets, ∃ key,
          (e.2.signer vaultHost.keyring σ.trace).1 = some key ∧
          key.address = aliceKey.address ∧
          ∀ sender payload price,
            (submit vaultHost e.1 sender payload price).run σ
              =
            (submitWith vaultHost e.2 key sender payload price).run σ) ∧
        ∀ command target args σ',
          ((runTarget vaultHost (fun _ w => w) target args).run
            ((runCommand vaultHost command args).run σ).2).2 = σ' →
          ∀ c : WriteCommand, ∃ new,
            (runWrite vaultHost c args σ').2.trace.exchanges = new ++ σ'.trace.exchanges ∧
            ∀ signed answer, (signed, answer) ∈ broadcasts new →
              SignedFor vaultFiles id vaultHost σ' c.wallet signed := by
  obtain ⟨t', hvalid⟩ := exists_vault
  let σ : Session Keystore := { plan := { wallets := vaultWallets }, trace := t' }
  have hkeyed := (runWrite_keyed guards_vault.keyring hvalid).2 σ
  refine ⟨σ, rfl, ?_, ?_⟩
  . intro e he
    have hfind : Entries.find? vaultWallets e.1 = some e.2 ∧ e.2.address = aliceKey.address := by
      simp only [vaultWallets, List.mem_cons, List.not_mem_nil, or_false] at he
      rcases he with rfl | rfl | rfl
      all_goals exact ⟨rfl, rfl⟩
    obtain ⟨key, hsigner, haddress, hsubmit⟩ :=
      (hkeyed σ rfl rfl .refl vaultHost guards_vault).1 e.1 e.2 hfind.1
    exact ⟨key, hsigner, haddress.trans hfind.2, hsubmit⟩
  . rintro command target args σ' rfl c
    have hcommand : Continues vaultFiles id σ _ := .command .refl guards_vault command args
    have htarget := hcommand.target guards_vault (fun _ _ => rfl) target args
    exact (hkeyed _ rfl rfl htarget vaultHost guards_vault).2 c args

end Session

end Runbook
