import Runbook.Text.Digit

/-!
This module contains the hexadecimal form of byte strings.
-/

namespace Runbook

abbrev Bytes := List UInt8

namespace Text

def hexDigit (n : Nat) : Char :=
  if n < 10 then Char.ofNat (48 + n) else Char.ofNat (87 + n)

def hexByte (b : UInt8) : List Char :=
  [hexDigit (b.toNat / 16), hexDigit (b.toNat % 16)]

def hexChars (bs : Bytes) : List Char :=
  bs.flatMap hexByte

def hex (bs : Bytes) : String :=
  String.ofList (hexChars bs)

def hexPrefixed (bs : Bytes) : String :=
  "0x" ++ hex bs

def dropHexMark : List Char → List Char
  | '0' :: 'x' :: cs => cs
  | cs => cs

def unhexDigits : List Char → Option Bytes
  | [] => some []
  | [_] => none
  | hi :: lo :: cs =>
    if isHexDigit hi && isHexDigit lo then
      (unhexDigits cs).map (UInt8.ofNat (16 * digitValue hi + digitValue lo) :: ·)
    else
      none

def unhex? (s : String) : Option Bytes :=
  unhexDigits (dropHexMark s.toList)

theorem hexByte_decodes : ∀ b : UInt8,
    (hexByte b).all isHexDigit = true ∧
      UInt8.ofNat (16 * digitValue (hexDigit (b.toNat / 16)) + digitValue (hexDigit (b.toNat % 16)))
        = b := by
  intro b
  have hall : ∀ n : Fin 256,
      (hexByte (UInt8.ofNat n)).all isHexDigit = true ∧
        16 * digitValue (hexDigit (n / 16)) + digitValue (hexDigit (n % 16)) = n := by
    decide +kernel
  have := hall ⟨b.toNat, b.toNat_lt⟩
  simp only [UInt8.ofNat_toNat] at this
  exact ⟨this.1, by rw [this.2]; simp⟩

theorem unhexDigits_hexChars (bs : Bytes) : unhexDigits (hexChars bs) = some bs := by
  induction bs with
  | nil => rfl
  | cons b bs ih =>
    have hb := hexByte_decodes b
    simp only [hexByte, List.all_cons, List.all_nil, Bool.and_true, Bool.and_eq_true] at hb
    simp only [hexChars, List.flatMap_cons, hexByte, List.cons_append, List.nil_append,
      unhexDigits, hb.1.1, hb.1.2, Bool.and_self, if_true]
    rw [show bs.flatMap hexByte = hexChars bs from rfl, ih]
    simp [hb.2]

end Text

end Runbook
