import Runbook.Abi.Decode
import Runbook.Proofs.Text.Utf8

/-!
This module contains what words stand for, and the reading of the bytes that stand at a place of a
buffer.
-/

namespace Runbook

theorem bytesOfNat_natOfBytes {size : Nat} {bs : Bytes} (h : bs.length = size) :
    bytesOfNat size (natOfBytes bs) = bs := by
  induction size generalizing bs with
  | zero => rw [List.eq_nil_of_length_eq_zero h, bytesOfNat]
  | succ size ih =>
    obtain rfl | ⟨front, last, rfl⟩ := List.eq_nil_or_concat bs
    . simp at h
    . rw [List.concat_eq_append] at h ⊢
      have hf : front.length = size := by simpa using h
      have hl := last.toNat_lt
      have hdiv : (256 * natOfBytes front + last.toNat) / 256 = natOfBytes front := by omega
      have hlast : UInt8.ofNat (256 * natOfBytes front + last.toNat) = last := by
        rw [← UInt8.toNat_inj, UInt8.toNat_ofNat']
        omega
      rw [bytesOfNat, natOfBytes_append_singleton, hdiv, ih hf, hlast]

theorem Address.ofWord_append (before : Bytes) (a : Address) : ofWord (before ++ a.bytes) = a := by
  have hl : (before ++ a.bytes).length - 20 = before.length := by
    rw [List.length_append, a.length_bytes, Nat.add_sub_cancel]
  rw [ofWord, hl, List.drop_left, ofBytes?_bytes, Option.getD_some]

namespace Abi

@[simp]
theorem length_word (n : Nat) : (word n).length = 32 :=
  length_bytesOfNat 32 n

theorem natOfBytes_word {n : Nat} (h : n < 2 ^ 256) : natOfBytes (word n) = n := by
  rw [word, natOfBytes_bytesOfNat]
  exact Nat.mod_eq_of_lt h

theorem word_natOfBytes {bs : Bytes} (h : bs.length = 32) : word (natOfBytes bs) = bs :=
  bytesOfNat_natOfBytes h

theorem natToSigned_signedWord {n : Int} (h : -2 ^ 255 ≤ n ∧ n < 2 ^ 255) :
    natToSigned (natOfBytes (signedWord n)) = n := by
  have hlt : (n % 2 ^ 256).toNat < 2 ^ 256 := by omega
  rw [signedWord, natOfBytes_word hlt, natToSigned]
  split
  . omega
  . omega

theorem length_padRight (bs : Bytes) :
    (padRight bs).length = bs.length + (32 - bs.length % 32) % 32 := by
  rw [padRight, List.length_append, List.length_replicate]

theorem length_padRight_of_le {bs : Bytes} (hpos : 0 < bs.length) (hle : bs.length ≤ 32) :
    (padRight bs).length = 32 := by
  rw [length_padRight]
  omega

theorem take_padRight (bs : Bytes) : (padRight bs).take bs.length = bs := by
  rw [padRight, List.take_left]

theorem prefix_drop_append {front back buffer : Bytes} {place : Nat}
    (h : front ++ back <+: buffer.drop place) :
    front <+: buffer.drop place ∧ back <+: buffer.drop (place + front.length) := by
  obtain ⟨rest, hrest⟩ := h
  rw [List.append_assoc] at hrest
  constructor
  . exact ⟨back ++ rest, hrest⟩
  . rw [← List.drop_drop, ← hrest, List.drop_left]
    exact List.prefix_append back rest

theorem add_length_le_of_prefix_drop {bs buffer : Bytes} {place : Nat}
    (h : bs <+: buffer.drop place) (hpos : 0 < bs.length) : place + bs.length ≤ buffer.length := by
  have hle := h.length_le
  rw [List.length_drop] at hle
  omega

namespace Decoder

variable {α : Type} {depth place offset : Nat} {buffer bs : Bytes}

theorem wordAt_of_prefix (h : bs <+: buffer.drop place) (hl : bs.length = 32) :
    wordAt buffer place = some (natOfBytes bs) := by
  have htake : (buffer.drop place).take 32 = bs := by
    rw [← hl]
    exact (List.prefix_iff_eq_take.mp h).symm
  rw [wordAt, htake]
  exact if_pos hl

theorem countAt_of_prefix {n : Nat} (h : word n <+: buffer.drop place) (hn : n < 2 ^ 64) :
    countAt buffer place = some n := by
  have hn' : n < 2 ^ 256 := by omega
  rw [countAt, wordAt_of_prefix h (length_word n), natOfBytes_word hn']
  simp [hn]

theorem ofWord_of_prefix (f : Nat → α) (h : bs <+: buffer.drop place) (hl : bs.length = 32) :
    ofWord f depth buffer place = some (f (natOfBytes bs), place + 32) := by
  rw [ofWord, wordAt_of_prefix h hl, Option.map_some]

theorem packed_of_prefix (f : Bytes → α) (hd : depth < maxDepth) (hb : buffer.length < 2 ^ 64)
    (hw : word offset <+: buffer.drop place)
    (hp : word bs.length ++ padRight bs <+: buffer.drop offset) :
    packed f depth buffer place = some (f bs, place + 32) := by
  have hlen : (word bs.length ++ padRight bs).length = 32 + (padRight bs).length := by
    rw [List.length_append, length_word]
  have hend := add_length_le_of_prefix_drop hp (by omega)
  have hpad := length_padRight bs
  obtain ⟨hsize, hbytes⟩ := prefix_drop_append hp
  have hoffset : countAt buffer place = some offset := countAt_of_prefix hw (by omega)
  have hchild : child depth buffer offset = some (buffer.drop offset) := by
    rw [child, if_pos ⟨hd, by omega⟩]
  have hcount : countAt (buffer.drop offset) 0 = some bs.length := by
    rw [← List.drop_zero (l := buffer.drop offset)] at hsize
    exact countAt_of_prefix hsize (by omega)
  have hfit : 32 + bs.length ≤ (buffer.drop offset).length := by
    rw [List.length_drop]
    omega
  have htake : ((buffer.drop offset).drop 32).take bs.length = bs := by
    rw [length_word, ← List.drop_drop] at hbytes
    have hstart : bs <+: (buffer.drop offset).drop 32 :=
      (List.prefix_append bs _).trans hbytes
    exact (List.prefix_iff_eq_take.mp hstart).symm
  simp only [packed, hoffset, hchild, hcount, Option.bind_eq_bind, Option.bind_some, hfit, if_true,
    htake]

theorem sequence_cons {d : Decoder α} {ds : List (Decoder α)} {v : α} {vs : List α}
    {next last : Nat} (hd : d depth buffer place = some (v, next))
    (hds : sequence ds depth buffer next = some (vs, last)) :
    sequence (d :: ds) depth buffer place = some (v :: vs, last) := by
  simp [sequence, hd, hds]

end Decoder

end Abi

end Runbook
