import Mathlib.Data.List.Induction
import Mathlib.Data.Nat.Digits.Defs
import Runbook.Number.Bytes
import Runbook.Proofs.Text.Blank

/-!
This module contains which characters numbers and bytes are written with, and which number is read
off their digits.
-/

namespace Runbook

theorem isDigit_of_mem_toDigits {n : Nat} {c : Char} (h : c ∈ Nat.toDigits 10 n)
    : c.isDigit = true :=
  Nat.isDigit_of_mem_toDigits (by omega) (by omega) h

theorem isDigit_of_mem_repr {n : Nat} {c : Char} (h : c ∈ n.repr.toList) : c.isDigit = true := by
  rw [Nat.toList_repr] at h
  exact isDigit_of_mem_toDigits h

theorem toString_negSucc (n : Nat)
    : (toString (Int.negSucc n)).toList = '-' :: (n + 1).repr.toList :=
  String.toList_append

theorem forall_mem_toString (n : Int) : ∀ c ∈ (toString n).toList, c.isDigit = true ∨ c = '-' := by
  intro c hc
  cases n with
  | ofNat n => exact .inl (isDigit_of_mem_repr (n := n) hc)
  | negSucc n =>
    rw [toString_negSucc] at hc
    cases List.mem_cons.mp hc with
    | inl heq => exact .inr heq
    | inr hmem => exact .inl (isDigit_of_mem_repr hmem)

namespace Text

theorem takeWhile_append_stop {p : Char → Bool} {ds rest : List Char} (hd : ∀ c ∈ ds, p c)
    (hr : ∀ c ∈ rest.head?, p c = false) : (ds ++ rest).takeWhile p = ds := by
  rw [List.takeWhile_append_of_pos hd]
  cases rest with
  | nil => simp
  | cons c rest => simp [hr c rfl]

theorem dropWhile_append_stop {p : Char → Bool} {ds rest : List Char} (hd : ∀ c ∈ ds, p c)
    (hr : ∀ c ∈ rest.head?, p c = false) : (ds ++ rest).dropWhile p = rest := by
  rw [List.dropWhile_append_of_pos hd]
  cases rest with
  | nil => simp
  | cons c rest => simp [hr c rfl]

theorem digitsValue_toDigits (n : Nat) : digitsValue 10 (Nat.toDigits 10 n) = n := by
  have hvalue (cs : List Char) (m : Nat) (hcs : ∀ c ∈ cs, c.isDigit = true)
      : cs.foldl (fun n c => 10 * n + digitValue c) m = Nat.ofDigitChars 10 cs m := by
    induction cs generalizing m with
    | nil => rfl
    | cons c cs ih =>
      rw [List.forall_mem_cons] at hcs
      rw [List.foldl_cons, ih _ hcs.2, digitValue, if_pos hcs.1]
      rfl
  unfold digitsValue
  rw [hvalue _ _ fun c hc => isDigit_of_mem_toDigits hc]
  exact Nat.ofDigitChars_toDigits (by omega) (by omega)

theorem digitValue_lt_of_isDigit {c : Char} (h : c.isDigit) : digitValue c < 10 := by
  unfold digitValue
  rw [if_pos h]
  simp only [Char.isDigit, Bool.and_eq_true, decide_eq_true_eq, UInt32.le_iff_toNat_le,
    ge_iff_le, Char.reduceVal, UInt32.reduceToNat] at h
  show c.val.toNat - 48 < 10
  omega

theorem digitValue_lt (c : Char) : digitValue c < 16 := by
  by_cases hdigit : c.isDigit
  . exact Nat.lt_trans (digitValue_lt_of_isDigit hdigit) (by decide)
  . unfold digitValue
    rw [if_neg hdigit]
    simp only [Bool.and_eq_true, decide_eq_true_eq, Char.le_def, UInt32.le_iff_toNat_le,
      Char.reduceVal, UInt32.reduceToNat, Char.toNat]
    split
    . omega
    . split <;> omega

theorem digitsValue_lt {radix : Nat} {ds : List Char} (h : ∀ c ∈ ds, digitValue c < radix)
    : digitsValue radix ds < radix ^ ds.length := by
  induction ds using List.reverseRecOn with
  | nil => exact Nat.one_pos
  | append_singleton ds c ih =>
    rw [List.forall_mem_append, List.forall_mem_singleton] at h
    have hfront := ih h.1
    rw [digitsValue_append_singleton, List.length_append, List.length_singleton, Nat.pow_succ]
    calc radix * digitsValue radix ds + digitValue c < radix * (digitsValue radix ds + 1) := by
          rw [Nat.mul_succ]
          exact Nat.add_lt_add_left h.2 _
      _ ≤ radix * radix ^ ds.length := Nat.mul_le_mul_left _ hfront
      _ = radix ^ ds.length * radix := Nat.mul_comm ..

theorem digitsValue_eq_ofDigits (radix : Nat) (ds : List Char)
    : digitsValue radix ds = Nat.ofDigits radix (ds.reverse.map digitValue) := by
  induction ds using List.reverseRecOn with
  | nil => rfl
  | append_singleton ds c ih =>
    rw [digitsValue_append_singleton, ih, List.reverse_append, List.reverse_singleton,
      List.singleton_append, List.map_cons, Nat.ofDigits_cons, Nat.add_comm]

theorem forall_mem_hexChars {p : Char → Prop} (h : ∀ n < 16, p (hexDigit n)) (bs : Bytes)
    : ∀ c ∈ hexChars bs, p c := by
  intro c hc
  obtain ⟨b, _, hb⟩ := List.mem_flatMap.mp hc
  have hlt := b.toNat_lt
  rcases List.mem_cons.mp hb with rfl | hb
  . exact h _ (by omega)
  . rw [List.mem_singleton.mp hb]
    exact h _ (Nat.mod_lt _ (by decide))

theorem isHexDigit_hexChars (bs : Bytes) : ∀ c ∈ hexChars bs, isHexDigit c = true :=
  forall_mem_hexChars (by decide) bs

theorem length_hexChars (bs : Bytes) : (hexChars bs).length = 2 * bs.length := by
  induction bs with
  | nil => rfl
  | cons b bs ih =>
    have hcons : hexChars (b :: bs) = hexByte b ++ hexChars bs := rfl
    rw [hcons, List.length_append, ih, List.length_cons]
    show 2 + _ = _
    omega

theorem digitsValue_hexChars (bs : Bytes) : digitsValue 16 (hexChars bs) = natOfBytes bs := by
  have hdigit : ∀ n < 16, digitValue (hexDigit n) = n := by decide
  induction bs using List.reverseRecOn with
  | nil => rfl
  | append_singleton bs b ih =>
    have hlt := b.toNat_lt
    have hchars : hexChars (bs ++ [b])
        = (hexChars bs ++ [hexDigit (b.toNat / 16)]) ++ [hexDigit (b.toNat % 16)] := by
      simp [hexChars, hexByte]
    rw [hchars, digitsValue_append_singleton, digitsValue_append_singleton, ih,
      natOfBytes_append_singleton, hdigit _ (by omega), hdigit _ (Nat.mod_lt _ (by decide))]
    omega

theorem trim_hex (bs : Bytes) : trim (hex bs) = hex bs := by
  apply trim_of_none
  unfold hex
  rw [String.toList_ofList]
  exact forall_mem_hexChars (by decide) bs

theorem dropHexMark_hexChars (bs : Bytes) : dropHexMark (hexChars bs) = hexChars bs := by
  have hx : ∀ c ∈ hexChars bs, c ≠ 'x' := forall_mem_hexChars (by decide) bs
  unfold dropHexMark
  split
  . next heq => exact absurd rfl (hx 'x' (by simp [heq]))
  . rfl

theorem unhex?_hex (bs : Bytes) : unhex? (hex bs) = some bs := by
  unfold unhex? hex
  rw [String.toList_ofList, dropHexMark_hexChars, unhexDigits_hexChars]

theorem toList_hexPrefixed (bs : Bytes) : (hexPrefixed bs).toList = '0' :: 'x' :: hexChars bs := by
  unfold hexPrefixed hex
  rw [String.toList_append]
  exact congrArg ('0' :: 'x' :: ·) String.toList_ofList

theorem trim_hexPrefixed (bs : Bytes) : trim (hexPrefixed bs) = hexPrefixed bs := by
  apply trim_of_none
  rw [toList_hexPrefixed, List.forall_mem_cons, List.forall_mem_cons]
  exact ⟨by decide, by decide, forall_mem_hexChars (by decide) bs⟩

end Text

end Runbook
