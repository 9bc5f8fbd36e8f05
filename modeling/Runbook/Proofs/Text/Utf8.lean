import Runbook.Text.Utf8

/-!
This module contains the round trip of text through its UTF-8 bytes.
-/

namespace Runbook.Text

theorem decodeUtf8_cons_ascii {b : UInt8} (h : b < 0x80) (rest : Bytes) :
    decodeUtf8 (b :: rest) = Char.ofNat b.toNat :: decodeUtf8 rest := by
  rw [decodeUtf8.eq_def]
  simp only [h, if_true]

theorem decodeUtf8_cons_cons {b c low high : UInt8} {more code : Nat} {rest rest' : Bytes}
    (hb : ¬b < 0x80) (hs : secondByte b = some (low, high, more)) (hl : low ≤ c) (hh : c ≤ high)
    (hr : extendCode (64 * leadBits b more + c.toNat % 64) more rest = (code, 0, rest')) :
    decodeUtf8 (b :: c :: rest) = Char.ofNat code :: decodeUtf8 rest' := by
  rw [decodeUtf8.eq_def]
  simp [hb, hs, hl, hh, hr]

theorem secondByte_ofNat : ∀ n < 256, secondByte (UInt8.ofNat n) =
    if n < 0xC2 then none
    else if n < 0xE0 then some (0x80, 0xBF, 0)
    else if n < 0xF0 then
      some (if n = 0xE0 then 0xA0 else 0x80, if n = 0xED then 0x9F else 0xBF, 1)
    else if n < 0xF5 then
      some (if n = 0xF0 then 0x90 else 0x80, if n = 0xF4 then 0x8F else 0xBF, 2)
    else none := by
  decide +kernel

theorem toNat_ofNat_of_lt {n : Nat} (h : n < 256) : (UInt8.ofNat n).toNat = n := by
  rw [UInt8.toNat_ofNat']
  exact Nat.mod_eq_of_lt h

theorem decodeUtf8_ofNat {b c more code : Nat} {low high : UInt8} {rest rest' : Bytes}
    (hb : 0x80 ≤ b ∧ b < 256) (hs : secondByte (UInt8.ofNat b) = some (low, high, more))
    (hc : low.toNat ≤ c ∧ c ≤ high.toNat)
    (hr : extendCode (64 * (b % 2 ^ (5 - more)) + c % 64) more rest = (code, 0, rest')) :
    decodeUtf8 (UInt8.ofNat b :: UInt8.ofNat c :: rest) = Char.ofNat code :: decodeUtf8 rest' := by
  have hc' : c < 256 := Nat.lt_of_le_of_lt hc.2 high.toNat_lt
  apply decodeUtf8_cons_cons _ hs
  . rw [UInt8.le_iff_toNat_le, toNat_ofNat_of_lt hc']
    exact hc.1
  . rw [UInt8.le_iff_toNat_le, toNat_ofNat_of_lt hc']
    exact hc.2
  . rw [leadBits, toNat_ofNat_of_lt hb.2, toNat_ofNat_of_lt hc']
    exact hr
  . rw [UInt8.lt_iff_toNat_lt, toNat_ofNat_of_lt hb.2]
    exact Nat.not_lt.mpr hb.1

theorem extendCode_ofNat {b : Nat} (h : b / 64 = 2) (code more : Nat) (bs : Bytes) :
    extendCode code (more + 1) (UInt8.ofNat b :: bs) = extendCode (64 * code + b % 64) more bs := by
  have hb : b < 256 := by omega
  have hc : isContinuation (UInt8.ofNat b) = true := by
    simp [isContinuation, UInt8.le_iff_toNat_le, UInt8.lt_iff_toNat_lt]
    omega
  rw [extendCode, if_pos hc, toNat_ofNat_of_lt hb]

theorem decodeUtf8_utf8EncodeChar_append (c : Char) (bs : Bytes) :
    decodeUtf8 (String.utf8EncodeChar c ++ bs) = c :: decodeUtf8 bs := by
  have hv : c.val.toNat < 0xD800 ∨ 0xDFFF < c.val.toNat ∧ c.val.toNat < 0x110000 := c.valid
  have hc : Char.ofNat c.val.toNat = c := Char.ofNat_toNat c
  generalize hn : c.val.toNat = n at hv hc
  simp only [String.utf8EncodeChar, hn]
  -- The cases are those of one, two, three and four bytes.
  split
  . rw [List.singleton_append, decodeUtf8_cons_ascii, toNat_ofNat_of_lt (by omega), hc]
    rw [UInt8.lt_iff_toNat_lt, toNat_ofNat_of_lt (by omega)]
    show n < 128
    omega
  . split
    . have hs : secondByte (UInt8.ofNat (n / 64 % 0x20 + 0xc0)) = some (0x80, 0xBF, 0) := by
        rw [secondByte_ofNat _ (by omega), if_neg (by omega), if_pos (by omega)]
      rw [← hc]
      apply decodeUtf8_ofNat (by omega) hs (by show 128 ≤ _ ∧ _ ≤ 191; omega)
      simp [extendCode]
      omega
    . split
      . have hs : secondByte (UInt8.ofNat (n / 4096 % 0x10 + 0xe0)) = some
            (if n / 4096 % 0x10 + 0xe0 = 0xE0 then 0xA0 else 0x80,
              if n / 4096 % 0x10 + 0xe0 = 0xED then 0x9F else 0xBF, 1) := by
          rw [secondByte_ofNat _ (by omega), if_neg (by omega), if_neg (by omega),
            if_pos (by omega)]
        rw [← hc]
        refine decodeUtf8_ofNat (by omega) hs ⟨?_, ?_⟩ ?_
        . split <;> simp only [UInt8.reduceToNat] <;> omega
        . split <;> simp only [UInt8.reduceToNat] <;> omega
        . simp only [List.append_eq, List.cons_append, List.nil_append]
          rw [extendCode_ofNat (by omega)]
          simp [extendCode]
          omega
      . have hs : secondByte (UInt8.ofNat (n / 262144 % 0x08 + 0xf0)) = some
            (if n / 262144 % 0x08 + 0xf0 = 0xF0 then 0x90 else 0x80,
              if n / 262144 % 0x08 + 0xf0 = 0xF4 then 0x8F else 0xBF, 2) := by
          rw [secondByte_ofNat _ (by omega), if_neg (by omega), if_neg (by omega),
            if_neg (by omega), if_pos (by omega)]
        rw [← hc]
        refine decodeUtf8_ofNat (by omega) hs ⟨?_, ?_⟩ ?_
        . split <;> simp only [UInt8.reduceToNat] <;> omega
        . split <;> simp only [UInt8.reduceToNat] <;> omega
        . simp only [List.append_eq, List.cons_append, List.nil_append]
          rw [extendCode_ofNat (by omega), extendCode_ofNat (by omega)]
          simp [extendCode]
          omega

theorem toList_loop (bs : ByteArray) (i : Nat) (read : Bytes) :
    ByteArray.toList.loop bs i read = read.reverse ++ bs.data.toList.drop i := by
  fun_induction ByteArray.toList.loop bs i read with
  | case1 i read h ih =>
    have hi : i < bs.data.toList.length := by
      rw [Array.length_toList]
      exact h
    have hget : bs.get! i = bs.data.toList[i] := by
      rw [Array.getElem_toList]
      exact getElem!_pos bs.data i h
    rw [ih, List.drop_eq_getElem_cons hi, hget, List.reverse_cons, List.append_assoc,
      List.singleton_append]
  | case2 i read h =>
    rw [List.drop_eq_nil_of_le, List.append_nil]
    rw [Array.length_toList]
    exact Nat.le_of_not_lt h

theorem toList_eq_data_toList (bs : ByteArray) : bs.toList = bs.data.toList :=
  toList_loop bs 0 []

theorem toUTF8_toList (s : String) :
    s.toUTF8.toList = s.toList.flatMap String.utf8EncodeChar := by
  conv => lhs; rw [← String.ofList_toList (s := s)]
  rw [toList_eq_data_toList, String.toUTF8_eq_toByteArray, String.toByteArray_ofList,
    List.utf8Encode, List.toList_data_toByteArray]

theorem length_toUTF8 (s : String) : s.toUTF8.toList.length = s.utf8ByteSize := by
  rw [toList_eq_data_toList, Array.length_toList]
  rfl

theorem decodeUtf8_toUTF8 (s : String) : decodeUtf8 s.toUTF8.toList = s.toList := by
  rw [toUTF8_toList]
  induction s.toList with
  | nil => rw [List.flatMap_nil, decodeUtf8]
  | cons c cs ih => rw [List.flatMap_cons, decodeUtf8_utf8EncodeChar_append, ih]

end Runbook.Text
