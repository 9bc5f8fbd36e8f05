import Runbook.Document.Basic
import Runbook.Wallet.Basic

/-!
This module contains the wallets that a playbook declares: where their keys come from, and that
these belong to the addresses they are declared with.
-/

namespace Runbook.Wallet

variable {ω : Type}

/--
The address that a declaration states. An empty one and `0x0` state none.
-/
def declaredAddress (text? : Option String) : Result (Option Address) :=
  match (text?.map Text.trim).getD "" with
  | "" | "0x0" => pure none
  | text =>
    match Address.parse? text with
    | some a => pure (some a)
    | none =>
      fail .validation ("address '" ++ text ++ "' is not valid (must be a 0x-prefixed hex string)")

/--
The address of a wallet whose key says `found`, which the declared one must not contradict.
-/
def agreedAddress (name source : String) (found : Address) (declared : Option Address) :
    Action (Trace ω) Address := do
  match declared with
  | none =>
    Action.perform (Trace.write .info
      ("wallet " ++ name ++ ": loaded address " ++ found.text ++ " from " ++ source))
    return found
  | some a =>
    if a = found then return a
    else
      Action.fail .validation ("address " ++ found.text ++ " loaded from " ++ source
        ++ " differs from specified address " ++ a.text)

/--
A wallet whose key stands in the playbook. It needs neither password nor keyfile.
-/
def ofPrivateKey (name : String) (d : WalletDecl) (text : String) (declared : Option Address) :
    Action (Trace ω) Wallet := do
  let ignored (what : String) : Action (Trace ω) Unit :=
    Action.perform (Trace.write .warn
      ("wallet " ++ name ++ ": private key is loaded from string, " ++ what ++ " is ignored"))
  if (setting d.password).isSome then ignored "password"
  if (setting d.keyfile).isSome then ignored "keyfile"
  match PrivateKey.parse? text with
  | none => Action.fail .validation "failed to unpack privkey"
  | some key =>
    return { address := ← agreedAddress name "privkey" key.address declared,
             credential := .embedded key }

def keystoreScheme : String := "keystore://"

/--
Where a keyfile lies: the folder, if there is one to start from, and the file. A folder that was set
besides may go unused, which the note says.
-/
structure KeyfilePlace where
  folder : Option Path
  file : Path
  unused : Option String := none
deriving Repr, DecidableEq

/--
The place that a keyfile setting names. The scheme `keystore://` and absolute paths leave no room
for a folder set besides.
-/
def keyfilePlace (keystore : Option String) (keyfile : String) : KeyfilePlace :=
  let cs := keyfile.toList
  let noted (note : String) : Option String := keystore.map fun _ => note
  if keystoreScheme.toList.isPrefixOf cs then
    let location : Path := ⟨String.ofList (cs.drop keystoreScheme.length)⟩
    { folder := location.parent?.filter (!·.text.isEmpty), file := ⟨location.fileName?.getD ""⟩
      unused := noted "replacing keystore path with keyfile dir (keystore:// prefix)" }
  else if (Path.mk keyfile).isAbsolute then
    { folder := none, file := ⟨keyfile⟩
      unused := noted "ignoring keystore path, keyfile path is absolute" }
  else
    { folder := keystore.map Path.mk, file := ⟨keyfile⟩ }

def KeyfilePlace.path (p : KeyfilePlace) (base : Path) : Path :=
  base.join ((p.folder.getD ⟨""⟩).join p.file)

/--
Register a keyfile and see that it opens to the key of `a`. Otherwise it is given up again.
-/
def claimKeyfile (keyring : Keyring ω) (a : Address) (password : String) (path : Path) :
    Action (Trace ω) Unit := do
  Action.perform (Trace.outside fun w => ((), keyring.register a path w))
  let giveUp (note : String) : Action (Trace ω) Unit := do
    Action.perform (Trace.outside fun w => ((), keyring.unregister a path w))
    Action.fail .validation note
  match ← Action.perform (unlock keyring a password) with
  | none => giveUp ("unable to load private key from keyfile " ++ path.text)
  | some key =>
    if key.address = a then return ()
    else
      giveUp ("address " ++ key.address.text ++ " loaded from keyfile " ++ path.text
        ++ " differs from specified address " ++ a.text)

def requirePassword (d : WalletDecl) : Result String :=
  match setting d.password with
  | some password => pure password
  | none => fail .validation "no password is provided for the account keyfile"

def ofKeyfile (keyring : Keyring ω) (shelf : Shelf) (name : String) (d : WalletDecl)
    (keyfile : String) (declared : Option Address) : Action (Trace ω) Wallet := do
  let password ← Action.ofResult (requirePassword d)
  let place := keyfilePlace (setting d.keystore) keyfile
  if let some note := place.unused then
    Action.perform (Trace.write .warn ("wallet " ++ name ++ ": " ++ note))
  let path := place.path shelf.base
  if !shelf.files.isFile path then
    Action.fail .validation ("keyfile " ++ path.text ++ " is not found or cannot be read")
  else
    let stated ← Action.ofResult (Keyfile.address shelf.files path)
    let address ← agreedAddress name "keyfile" stated declared
    claimKeyfile keyring address password path
    return { address, password := some password, keystore := place.folder,
             keyfile := some place.file, credential := .keyfile path }

def ofKeystore (keyring : Keyring ω) (shelf : Shelf) (d : WalletDecl) (keystore : String)
    (declared : Option Address) : Action (Trace ω) Wallet := do
  match declared with
  | none => Action.fail .validation "an address is required to search the keyfile in keystore"
  | some address =>
    let password ← Action.ofResult (requirePassword d)
    let folder := shelf.base.join ⟨keystore⟩
    let (found, skipped) ← Action.ofResult (Keyfile.find shelf.files folder address)
    for path in skipped do
      Action.perform (Trace.write .warn ("skipping " ++ path.text ++ ": not a keyfile"))
    match found with
    | none =>
      Action.fail .validation ("no keyfile for " ++ address.text ++ " found in keystore "
        ++ folder.text)
    | some path =>
      claimKeyfile keyring address password path
      return { address, password := some password, keystore := some folder,
               keyfile := path.fileName?.map Path.mk, credential := .keyfile path }

/--
The wallet of a declaration. A private key wins over a keyfile, and a keyfile over a keystore.
-/
def ofDecl (keyring : Keyring ω) (shelf : Shelf) (name : String) (d : WalletDecl) :
    Action (Trace ω) Wallet := do
  let declared ← Action.ofResult (declaredAddress d.address)
  match setting d.privkey, setting d.keyfile, setting d.keystore with
  | some text, _, _ => ofPrivateKey name d text declared
  | none, some keyfile, _ => ofKeyfile keyring shelf name d keyfile declared
  | none, none, some keystore => ofKeystore keyring shelf d keystore declared
  | none, none, none => Action.fail .validation "no privkey, keyfile or keystore specified"

def ofDecls (keyring : Keyring ω) (shelf : Shelf) (ds : Entries WalletDecl) :
    Action (Trace ω) Wallets :=
  ds.mapM fun (name, d) => do
    return (name, ← (ofDecl keyring shelf name d).located "WALLETS" name)

end Runbook.Wallet
