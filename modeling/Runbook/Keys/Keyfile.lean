import Runbook.Cipher.Aes
import Runbook.Digest.Scrypt
import Runbook.Fault
import Runbook.Files.Basic
import Runbook.Json.Reader
import Runbook.Signing.Key

/-!
This module contains keyfiles: private keys encrypted by a password. The account's address is
written beside the key.
-/

namespace Runbook.Keyfile

inductive Stretching where
  | iterated (count size : Nat) (salt : Bytes)
  | costly (cost : Scrypt.Cost) (size : Nat) (salt : Bytes)
deriving Repr

structure Secret where
  counter : Bytes
  ciphertext : Bytes
  stretching : Stretching
  mac : Bytes
deriving Repr

def hexField? (fields : List (String × Json)) (name : String) : Option Bytes := do
  let s ← (← fields.lookup name).string?
  Text.unhexDigits s.toList

def numberField? (fields : List (String × Json)) (name : String) (bound : Nat) : Option Nat := do
  (← fields.lookup name).nat? bound

def textField? (fields : List (String × Json)) (name : String) : Option String := do
  (← fields.lookup name).string?

def iterated? (j : Json) : Option Stretching := do
  let fields ← j.record? ["c", "dklen", "prf", "salt"]
  let count ← numberField? fields "c" (2 ^ 32)
  let size ← numberField? fields "dklen" (2 ^ 8)
  let _ ← textField? fields "prf"
  return .iterated count size (← hexField? fields "salt")

def costly? (j : Json) : Option Stretching := do
  let fields ← j.record? ["dklen", "n", "p", "r", "salt"]
  let size ← numberField? fields "dklen" (2 ^ 8)
  let blocks ← numberField? fields "n" (2 ^ 32)
  let lanes ← numberField? fields "p" (2 ^ 32)
  let blockSize ← numberField? fields "r" (2 ^ 32)
  let salt ← hexField? fields "salt"
  return .costly { logCost := blocks.log2, blockSize, lanes } size salt

def isHyphenated (cs : List Char) : Bool :=
  let group (i n : Nat) := ((cs.drop i).take n).all Text.isHexDigit
  cs.length == 36 && [8, 13, 18, 23].all (fun i => cs[i]? == some '-')
    && group 0 8 && group 9 4 && group 14 4 && group 19 4 && group 24 12

def isIdentifier (s : String) : Bool :=
  let cs := s.toList
  let urn := "urn:uuid:".toList
  if cs.length == 32 then cs.all Text.isHexDigit
  else if cs.head? == some '\x7b' && cs.getLast? == some '\x7d' then
    isHyphenated ((cs.drop 1).dropLast)
  else if urn.isPrefixOf cs then isHyphenated (cs.drop urn.length)
  else isHyphenated cs

def secret? (j : Json) : Option Secret := do
  let fields ← j.record? ["crypto", "id", "version"]
  let crypto ← (← fields.lookup "crypto").record?
    ["cipher", "cipherparams", "ciphertext", "kdf", "kdfparams", "mac"]
  let _ ← textField? crypto "cipher"
  let cipherparams ← (← crypto.lookup "cipherparams").record? ["iv"]
  let counter ← hexField? cipherparams "iv"
  let ciphertext ← hexField? crypto "ciphertext"
  guard (["pbkdf2", "scrypt"].contains (← textField? crypto "kdf"))
  let kdfparams ← crypto.lookup "kdfparams"
  let stretching ← (iterated? kdfparams).or (costly? kdfparams)
  let mac ← hexField? crypto "mac"
  guard (isIdentifier (← textField? fields "id"))
  let _ ← numberField? fields "version" (2 ^ 8)
  return { counter, ciphertext, stretching, mac }

/--
The key that a password is stretched to. There have to be 32 bytes of it at least.
-/
def Stretching.apply? (password : Bytes) : Stretching → Option Bytes
  | .iterated count size salt =>
    if size < 32 then none else some (Hmac.stretch password salt count size)
  | .costly cost size salt =>
    if size < 32 || !cost.isValid then none else some (Scrypt.stretch password salt cost size)

/--
The private key under a password. The second half of the stretched password proves that the password
is right, the first half decrypts. A key may lack up to eight leading zero bytes.
-/
def Secret.open? (s : Secret) (password : String) : Option PrivateKey := do
  let key ← s.stretching.apply? password.toUTF8.toList
  guard (Keccak.hash ((key.drop 16).take 16 ++ s.ciphertext) == s.mac)
  guard (16 ≤ s.counter.length)
  let plain := Aes.apply (key.take 16) (s.counter.take 16) s.ciphertext
  guard (24 ≤ plain.length && plain.length ≤ 32)
  PrivateKey.ofNat? (natOfBytes plain)

def open? (files : Files) (path : Path) (password : String) : Option PrivateKey := do
  let text ← files.read? path
  (← secret? (← Json.parse? text)).open? password

def address (files : Files) (path : Path) : Result Address :=
  match files.read? path with
  | none => fail .validation ("unable to read keyfile " ++ path.text)
  | some text =>
    match ((Json.parse? text).bind (Json.record? ["address"])).bind (textField? · "address") with
    | none => fail .validation ("keyfile " ++ path.text ++ " has wrong format")
    | some stated =>
      match Address.parse? (Text.trim stated) with
      | some a => pure a
      | none => fail .validation ("wrong (not hex) address in " ++ path.text)

/--
The first of some keyfiles that states the address, and the files before it that state none.
-/
def search (files : Files) (wanted : Address) : List Path → Option Path × List Path
  | [] => (none, [])
  | path :: paths =>
    match address files path with
    | .ok a => if a = wanted then (some path, []) else search files wanted paths
    | .error _ =>
      let (found, skipped) := search files wanted paths
      (found, path :: skipped)

def find (files : Files) (folder : Path) (wanted : Address) : Result (Option Path × List Path) :=
  match files.inFolder? folder with
  | none => fail .validation ("failed to search keyfile in keystore " ++ folder.text)
  | some paths => pure (search files wanted paths)

end Runbook.Keyfile
