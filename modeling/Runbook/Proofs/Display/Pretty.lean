import Runbook.Address
import Runbook.Display.Pretty
import Runbook.Proofs.Text.Casing
import Runbook.Proofs.Text.Numeral

/-!
This module contains which texts are shown to people as they are, and what the digits of bytes are
shown as.
-/

namespace Runbook

open Text

/--
Digits that are shown as they are: those of an address in small letters, more than those of 256
bits, or several with a zero in front.
-/
def KeepsDigits (digits : List Char) : Prop :=
  if digits.length = 40 then ∀ c ∈ digits, c.isUpper = false
  else 64 < digits.length ∨ (1 < digits.length ∧ digits.head? = some '0')

def IsMarked (s : String) (digits : List Char) : Prop :=
  s.toList = '0' :: 'x' :: digits ∧ digits ≠ [] ∧ ∀ c ∈ digits, isHexDigit c = true

def KeepsText (s : String) : Prop :=
  ¬ transactionMark.toList <+: s.toList ∧ ∀ digits, IsMarked s digits → KeepsDigits digits

theorem lt_of_isHexDigit {c : Char} (h : isHexDigit c = true) : c.toNat < 128 := by
  unfold isHexDigit at h
  simp only [Bool.or_eq_true, Bool.and_eq_true, decide_eq_true_eq, Char.isDigit] at h
  rcases h with (⟨_, h⟩ | ⟨_, h⟩) | ⟨_, h⟩
  . exact Nat.lt_of_le_of_lt (UInt32.le_iff_toNat_le.mp h) (by decide)
  . exact Nat.lt_of_le_of_lt (UInt32.le_iff_toNat_le.mp h) (by decide)
  . exact Nat.lt_of_le_of_lt (UInt32.le_iff_toNat_le.mp h) (by decide)

theorem toLower_eq_self {c : Char} (h : c.toNat < 128) : c.toLower = c ↔ c.isUpper = false :=
  forall_ascii (p := fun c => c.toLower = c ↔ c.isUpper = false) (by decide +kernel) h

theorem map_toLower_eq_self {cs : List Char} (h : ∀ c ∈ cs, isHexDigit c = true)
    : cs.map Char.toLower = cs ↔ ∀ c ∈ cs, c.isUpper = false := by
  have hmap : cs.map Char.toLower = cs.map id ↔ ∀ c ∈ cs, c.toLower = id c := List.map_inj_left
  rw [List.map_id] at hmap
  rw [hmap]
  exact forall₂_congr fun c hc => toLower_eq_self (lt_of_isHexDigit (h c hc))

theorem lower_marked {digits : List Char} (h : ∀ c ∈ digits, isHexDigit c = true)
    : lower (String.ofList ('0' :: 'x' :: digits))
        = String.ofList ('0' :: 'x' :: digits.map Char.toLower) := by
  have hascii : ∀ c ∈ '0' :: 'x' :: digits, c.toNat < 128 := by
    rw [List.forall_mem_cons, List.forall_mem_cons]
    exact ⟨by decide, by decide, fun c hc => lt_of_isHexDigit (h c hc)⟩
  unfold lower
  rw [String.toList_ofList, lowerChars_of_ascii hascii]
  rfl

theorem toString_ne_marked (n : Nat) (digits : List Char)
    : toString n ≠ String.ofList ('0' :: 'x' :: digits) := by
  intro h
  have hx : 'x' ∈ (Nat.repr n).toList := by
    show 'x' ∈ (toString n).toList
    rw [h, String.toList_ofList]
    simp
  exact absurd (isDigit_of_mem_repr hx) (by decide)

theorem prettyDigits_eq_self {digits : List Char} (h : ∀ c ∈ digits, isHexDigit c = true)
    : prettyDigits digits = String.ofList ('0' :: 'x' :: digits) ↔ KeepsDigits digits := by
  unfold prettyDigits KeepsDigits
  dsimp only
  split
  . rw [lower_marked h, ← map_toLower_eq_self h, String.ofList_inj]
    simp only [List.cons.injEq, true_and]
  . split
    . next hkept => exact iff_of_true rfl hkept
    . next hquantity => exact iff_of_false (toString_ne_marked _ _) hquantity

theorem prettyDigits_of_not_keepsDigits {digits : List Char}
    (hlower : ∀ c ∈ digits, c.isUpper = false) (h : ¬ KeepsDigits digits)
    : prettyDigits digits = toString (digitsValue 16 digits) := by
  unfold KeepsDigits at h
  unfold prettyDigits
  dsimp only
  split
  . next h40 =>
    rw [if_pos h40] at h
    exact absurd hlower h
  . next h40 =>
    rw [if_neg h40] at h
    rw [if_neg h]

theorem prettyText_cases (s : String)
    : (∃ hash, s.toList = transactionMark.toList ++ hash ∧ prettyText s = String.ofList hash) ∨
      (∃ digits, IsMarked s digits ∧ prettyText s = prettyDigits digits) ∨
      (¬ transactionMark.toList <+: s.toList ∧ (∀ digits, ¬ IsMarked s digits) ∧
        prettyText s = s) := by
  unfold prettyText
  dsimp only
  split
  . next hmark =>
    obtain ⟨hash, hs⟩ := List.isPrefixOf_iff_prefix.mp hmark
    refine .inl ⟨hash, hs.symm, ?_⟩
    rw [← hs, List.drop_left]
  . next hmark =>
    have hmark : ¬ transactionMark.toList <+: s.toList :=
      fun h => hmark (List.isPrefixOf_iff_prefix.mpr h)
    split
    . next digits hs =>
      split
      . next hdigits =>
        rw [Bool.and_eq_true, List.all_eq_true] at hdigits
        exact .inr (.inl ⟨digits, ⟨hs, by simpa using hdigits.1, hdigits.2⟩, rfl⟩)
      . next hdigits =>
        refine .inr (.inr ⟨hmark, ?_, rfl⟩)
        rintro digits' ⟨hs', hne, hhex⟩
        rw [hs] at hs'
        cases hs'
        exact hdigits (by simpa [hne] using hhex)
    . next hother =>
      refine .inr (.inr ⟨hmark, ?_, rfl⟩)
      rintro digits ⟨hs, _⟩
      exact hother digits hs

theorem IsMarked.not_mark {s : String} {digits : List Char} (h : IsMarked s digits)
    : ¬ transactionMark.toList <+: s.toList := by
  rw [h.1]
  intro hmark
  exact absurd (List.cons_prefix_cons.mp hmark).1 (by decide)

theorem IsMarked.unique {s : String} {digits digits' : List Char} (h : IsMarked s digits)
    (h' : IsMarked s digits') : digits = digits' := by
  have heq := h.1.symm.trans h'.1
  cases heq
  rfl

theorem prettyText_of_isMarked {s : String} {digits : List Char} (h : IsMarked s digits)
    : prettyText s = prettyDigits digits := by
  rcases prettyText_cases s with ⟨hash, hs, _⟩ | ⟨digits', h', heq⟩ | ⟨_, hother, _⟩
  . exact absurd ⟨hash, hs.symm⟩ h.not_mark
  . rw [heq, h.unique h']
  . exact absurd h (hother digits)

theorem prettyText_eq_self {s : String} : prettyText s = s ↔ KeepsText s := by
  rcases prettyText_cases s with ⟨hash, hs, heq⟩ | ⟨digits, h, heq⟩ | ⟨hmark, hother, heq⟩
  . refine iff_of_false ?_ fun h => h.1 ⟨hash, hs.symm⟩
    intro hself
    have hlength := congrArg List.length hs
    have hmark : transactionMark.toList.length = 3 := rfl
    rw [← hself, heq, String.toList_ofList, List.length_append, hmark] at hlength
    omega
  . have hs : String.ofList ('0' :: 'x' :: digits) = s := by
      rw [← h.1, String.ofList_toList]
    rw [heq, ← hs, prettyDigits_eq_self h.2.2, hs]
    refine ⟨fun hkept => ⟨h.not_mark, fun digits' h' => ?_⟩, fun hkept => hkept.2 digits h⟩
    rw [← h.unique h']
    exact hkept
  . exact iff_of_true heq ⟨hmark, fun digits h => absurd h (hother digits)⟩

theorem prettyText_toString (n : Int) : prettyText (toString n) = toString n := by
  have hchars := forall_mem_toString n
  refine prettyText_eq_self.mpr ⟨fun h => ?_, fun digits h => ?_⟩
  . obtain ⟨rest, hs⟩ := h
    have ht : 't' ∈ (toString n).toList := by
      rw [← hs]
      exact List.mem_append_left _ (by decide)
    exact absurd (hchars 't' ht) (by decide)
  . have hx : 'x' ∈ (toString n).toList := by
      rw [h.1]
      simp
    exact absurd (hchars 'x' hx) (by decide)

/--
The digits of the bytes are taken for those of a quantity: there are some, not more than a word's,
not as many as those of an address, and they do not start with a zero.
-/
def readsAsQuantity : Bytes → Bool
  | [] => false
  | b :: bs => 16 ≤ b.toNat && bs.length + 1 ≤ 32 && bs.length + 1 != 20

def shownBytes (bs : Bytes) : String :=
  if readsAsQuantity bs then toString (natOfBytes bs) else hexPrefixed bs

theorem hexPrefixed_eq (bs : Bytes)
    : hexPrefixed bs = String.ofList ('0' :: 'x' :: hexChars bs) := by
  rw [← toList_hexPrefixed, String.ofList_toList]

theorem not_isUpper_hexChars (bs : Bytes) : ∀ c ∈ hexChars bs, c.isUpper = false :=
  forall_mem_hexChars (by decide) bs

theorem keepsDigits_hexChars (b : UInt8) (bs : Bytes)
    : KeepsDigits (hexChars (b :: bs)) ↔ readsAsQuantity (b :: bs) = false := by
  have hlength := length_hexChars (b :: bs)
  have hhead : (hexChars (b :: bs)).head? = some (hexDigit (b.toNat / 16)) := rfl
  have hlt := b.toNat_lt
  have hzero : ∀ n < 16, hexDigit n = '0' ↔ n = 0 := by decide
  unfold KeepsDigits readsAsQuantity
  rw [List.length_cons] at hlength
  rw [hhead, Option.some_inj, hzero _ (by omega)]
  split
  . next h40 =>
    refine iff_of_true (not_isUpper_hexChars _) ?_
    have : bs.length + 1 = 20 := by omega
    simp [this]
  . next h40 =>
    simp only [Bool.and_eq_false_imp, Bool.and_eq_true, decide_eq_true_eq, bne_eq_false_iff_eq]
    omega

theorem shownBytes_eq_self (bs : Bytes)
    : shownBytes bs = hexPrefixed bs ↔ readsAsQuantity bs = false := by
  unfold shownBytes
  split
  . next h =>
    rw [hexPrefixed_eq]
    exact iff_of_false (toString_ne_marked _ _) (by simp [h])
  . next h => exact iff_of_true rfl (by simpa using h)

theorem prettyText_hexPrefixed (bs : Bytes) : prettyText (hexPrefixed bs) = shownBytes bs := by
  cases bs with
  | nil => rfl
  | cons b bs =>
    have hmarked : IsMarked (hexPrefixed (b :: bs)) (hexChars (b :: bs)) :=
      ⟨toList_hexPrefixed _, List.cons_ne_nil _ _, isHexDigit_hexChars _⟩
    have hkeeps := keepsDigits_hexChars b bs
    rw [prettyText_of_isMarked hmarked, shownBytes]
    split
    . next hquantity =>
      rw [hquantity] at hkeeps
      have hlost := hkeeps.not.mpr (by decide)
      rw [prettyDigits_of_not_keepsDigits (not_isUpper_hexChars _) hlost, digitsValue_hexChars]
    . next hquantity =>
      have hkept := hkeeps.mpr (Bool.eq_false_iff.mpr hquantity)
      rw [(prettyDigits_eq_self hmarked.2.2).mpr hkept, hexPrefixed_eq]

end Runbook
