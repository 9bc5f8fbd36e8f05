import Runbook.Keys.Keyfile
import Runbook.Proofs.Json.Written

/-!
This module contains keyfiles that are written for a private key: they state its address, and they
open to it under the password that they were sealed with.
-/

namespace Runbook

namespace Aes

theorem length_stream (key start : Bytes) (blocks : Nat)
    : (stream key start blocks).length = 16 * blocks := by
  have hbytes (b : Block) : b.bytes.length = 16 := rfl
  unfold stream
  simp only [List.length_flatMap, hbytes, List.map_const', List.sum_replicate_nat,
    List.length_range]
  exact Nat.mul_comm ..

theorem zipWith_xor_zipWith {message mask : Bytes} (h : message.length ≤ mask.length)
    : List.zipWith (· ^^^ ·) (List.zipWith (· ^^^ ·) message mask) mask = message := by
  induction message generalizing mask with
  | nil => rfl
  | cons b message ih =>
    cases mask with
    | nil => exact absurd h (Nat.not_succ_le_zero _)
    | cons m mask =>
      have hb : b ^^^ m ^^^ m = b := by rw [UInt8.xor_assoc, UInt8.xor_self, UInt8.xor_zero]
      rw [List.zipWith_cons_cons, List.zipWith_cons_cons, hb, ih (Nat.le_of_succ_le_succ h)]

theorem length_apply (key start message : Bytes)
    : (apply key start message).length = message.length := by
  unfold apply
  rw [List.length_zipWith, length_stream]
  omega

theorem apply_apply (key start message : Bytes)
    : apply key start (apply key start message) = message := by
  have hlength := length_apply key start message
  unfold apply at hlength ⊢
  rw [hlength]
  apply zipWith_xor_zipWith
  rw [length_stream]
  omega

end Aes

theorem PrivateKey.ofNat?_scalar (key : PrivateKey) : ofNat? key.scalar = some key := by
  unfold ofNat?
  rw [dif_pos ⟨key.scalar_pos, key.scalar_lt⟩]

namespace Keyfile

theorem open?_of_stretched {s : Secret} {key : PrivateKey} {password : String}
    {stretched plain : Bytes}
    (hstretched : s.stretching.apply? password.toUTF8.toList = some stretched)
    (hmac : Keccak.hash ((stretched.drop 16).take 16 ++ s.ciphertext) = s.mac)
    (hcounter : 16 ≤ s.counter.length)
    (hplain : Aes.apply (stretched.take 16) (s.counter.take 16) s.ciphertext = plain)
    (hlength : 24 ≤ plain.length ∧ plain.length ≤ 32)
    (hkey : PrivateKey.ofNat? (natOfBytes plain) = some key) : s.open? password = some key := by
  have hproved : (Keccak.hash ((stretched.drop 16).take 16 ++ s.ciphertext) == s.mac) = true :=
    beq_iff_eq.mpr hmac
  unfold Secret.open?
  rw [hstretched, Option.bind_eq_bind, Option.bind_some, hproved, hplain]
  simp [hcounter, hlength, hkey]

def encrypted (key : PrivateKey) (stretched counter : Bytes) : Bytes :=
  Aes.apply (stretched.take 16) (counter.take 16) (bytesOfNat 32 key.scalar)

def proof (stretched ciphertext : Bytes) : Bytes :=
  Keccak.hash ((stretched.drop 16).take 16 ++ ciphertext)

theorem open?_encrypted {s : Secret} {key : PrivateKey} {password : String} {stretched : Bytes}
    (hstretched : s.stretching.apply? password.toUTF8.toList = some stretched)
    (hcounter : 16 ≤ s.counter.length)
    (hciphertext : s.ciphertext = encrypted key stretched s.counter)
    (hmac : s.mac = proof stretched s.ciphertext) : s.open? password = some key := by
  have hplain : Aes.apply (stretched.take 16) (s.counter.take 16) s.ciphertext
      = bytesOfNat 32 key.scalar := by
    rw [hciphertext]
    exact Aes.apply_apply ..
  have hlength := length_bytesOfNat 32 key.scalar
  have hscalar : natOfBytes (bytesOfNat 32 key.scalar) = key.scalar := by
    rw [natOfBytes_bytesOfNat]
    exact Nat.mod_eq_of_lt (Nat.lt_trans key.scalar_lt (by decide))
  refine open?_of_stretched hstretched hmac.symm hcounter hplain ?_ ?_
  . rw [hlength]
    decide
  . rw [hscalar]
    exact key.ofNat?_scalar

def oneRound : Json :=
  .object
    [("c", .int 1), ("dklen", .int 32), ("prf", .string "hmac-sha256"), ("salt", .string "")]

theorem iterated?_oneRound : iterated? oneRound = some (.iterated 1 32 []) := rfl

def file (a : Address) (counter ciphertext mac : Bytes) : Json :=
  .object
    [("address", .string (Text.hex a.bytes)),
      ("crypto", .object
        [("cipher", .string "aes-128-ctr"),
          ("cipherparams", .object [("iv", .string (Text.hex counter))]),
          ("ciphertext", .string (Text.hex ciphertext)),
          ("kdf", .string "pbkdf2"),
          ("kdfparams", oneRound),
          ("mac", .string (Text.hex mac))]),
      ("id", .string "00000000000000000000000000000001"),
      ("version", .int 3)]

theorem secret?_file (a : Address) (counter ciphertext mac : Bytes)
    : secret? (file a counter ciphertext mac)
        =
      some { counter, ciphertext, stretching := .iterated 1 32 [], mac } := by
  have hidentifier : isIdentifier "00000000000000000000000000000001" = true := by decide
  have hhex (bs : Bytes) : Text.unhexDigits (Text.hex bs).toList = some bs := by
    unfold Text.hex
    rw [String.toList_ofList, Text.unhexDigits_hexChars]
  unfold secret? file
  simp [Json.record?, hexField?, textField?, numberField?, List.lookup_cons, Json.string?,
    Json.nat?, iterated?_oneRound, hhex, hidentifier]

theorem isReadable_file (a : Address) (counter ciphertext mac : Bytes)
    : (file a counter ciphertext mac).isReadable Json.maxDepth = true := rfl

section Read

variable {files : Files} {path : Path} {password : String} {a : Address} {key : PrivateKey}
  {counter ciphertext mac stretched : Bytes}

theorem address_file (h : files.read? path = some (file a counter ciphertext mac).write)
    : address files path = .ok a := by
  have hstated : ((file a counter ciphertext mac).record? ["address"]).bind (textField? · "address")
      = some (Text.hex a.bytes) := rfl
  have haddress : Address.parse? (Text.hex a.bytes) = some a := by
    unfold Address.parse?
    rw [Text.unhex?_hex, Option.bind_some, Address.ofBytes?_bytes]
  unfold address
  rw [h]
  dsimp only
  rw [Json.parse?_write (isReadable_file ..), Option.bind_some, hstated]
  dsimp only
  rw [Text.trim_hex, haddress]
  rfl

theorem open?_file (h : files.read? path = some (file a counter ciphertext mac).write)
    (hstretched : stretched = Hmac.stretch password.toUTF8.toList [] 1 32)
    (hcounter : 16 ≤ counter.length) (hciphertext : ciphertext = encrypted key stretched counter)
    (hmac : mac = proof stretched ciphertext) : open? files path password = some key := by
  unfold open?
  rw [h, Option.bind_eq_bind, Option.bind_some, Json.parse?_write (isReadable_file ..),
    Option.bind_eq_bind, Option.bind_some, secret?_file, Option.bind_eq_bind, Option.bind_some]
  refine open?_encrypted ?_ hcounter hciphertext hmac
  rw [hstretched]
  rfl

def ofKey (key : PrivateKey) (password : String) : Json :=
  let stretched := Hmac.stretch password.toUTF8.toList [] 1 32
  let counter := List.replicate 16 0
  let ciphertext := encrypted key stretched counter
  file key.address counter ciphertext (proof stretched ciphertext)

theorem address_ofKey (h : files.read? path = some (ofKey key password).write)
    : address files path = .ok key.address :=
  address_file h

theorem open?_ofKey (h : files.read? path = some (ofKey key password).write)
    : open? files path password = some key :=
  open?_file h rfl (by simp) rfl rfl

end Read

end Keyfile

end Runbook
