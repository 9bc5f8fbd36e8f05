import Runbook.Proofs.Calc.Rounding

/-!
This module contains the proof that numerals in radix sixteen are read as a whole, and that they
stand for the number they write or, if their power of two is too large, for none.
-/

namespace Runbook.Calc

open Number Text

def hexNumber (ds : List Char) : ℕ :=
  Nat.ofDigits 16 (ds.reverse.map digitValue)

theorem Exponent.natAbs_value (x : Exponent) : x.value.natAbs = x.magnitude := by
  unfold value
  split <;> simp

namespace Spelling

variable {s : Spelling} (hs : s.WellFormed) (hhex : s.isHex)

include hhex

theorem mantissa_of_isHex : s.mantissa = hexNumber s.digits := by
  rw [mantissa, if_pos hhex]
  exact digitsValue_eq_ofDigits 16 s.digits

include hs

variable {rest : List Char} (hrest : s.EndsBefore rest)

include hrest

theorem scanNumeral_scaled (hexponent : s.exponent ≠ none) (hpower : s.power.natAbs < 2 ^ 63)
    (hshift : s.shift.natAbs < 2 ^ 63)
    : scanNumeral (s.chars ++ rest)
        =
      (Numeral.scaleByPowerOfTwo s.mantissa s.shift).map (.float ·, rest) := by
  obtain ⟨x, hx⟩ := Option.ne_none_iff_exists'.mp hexponent
  have hmagnitude : x.magnitude < 2 ^ 63 := by
    rwa [power_eq hx, Exponent.natAbs_value] at hpower
  have hlow : -2 ^ 63 ≤ s.shift := by omega
  rw [scanNumeral_of_isHex hs hhex hrest,
    hexToken_float hhex hs.digits_ne_nil hx (hs.exponent_ne_nil x hx),
    if_neg (Nat.not_le.mpr hmagnitude), if_neg (Int.not_lt.mpr hlow)]
  cases Numeral.scaleByPowerOfTwo s.mantissa s.shift <;> rfl

end Spelling

/--
A numeral in radix sixteen is read as a whole. Without an exponent it is an integer. With one it is
exactly the integer of all its digits times a power of two, where each digit behind the point lowers
the exponent by four. Powers beyond 4096 either way are not supported, unless the digits are zeros.
-/
theorem Spelling.scanNumeral_hex {s : Spelling} (hs : s.WellFormed) (hhex : s.isHex)
    {rest : List Char} (hrest : s.EndsBefore rest)
    : (s.exponent = none → scanNumeral (s.chars ++ rest) = .ok (.int (hexNumber s.digits), rest)) ∧
      (s.exponent ≠ none → s.power.natAbs < 2 ^ 63 → s.shift.natAbs < 2 ^ 63 →
        if hexNumber s.digits = 0 ∨ s.shift.natAbs ≤ 4096 then
          ∃ d, scanNumeral (s.chars ++ rest) = .ok (.float d, rest) ∧
            d.value = hexNumber s.digits * (2 : ℚ) ^ s.shift
        else
          ∃ c, scanNumeral (s.chars ++ rest) = .error c ∧ c.kind = .unsupported) := by
  rw [← mantissa_of_isHex hhex]
  constructor
  . intro hexponent
    rw [scanNumeral_of_isHex hs hhex hrest, hexToken_int hs hhex hexponent]
    rfl
  . intro hexponent hpower hshift
    rw [scanNumeral_scaled hs hhex hrest hexponent hpower hshift]
    split
    . next hrange =>
      refine ⟨binaryFloat s.mantissa s.shift, ?_, value_binaryFloat s.mantissa s.shift⟩
      rw [scaleByPowerOfTwo_eq hrange]
      rfl
    . next hlarge =>
      rw [not_or, Nat.not_le] at hlarge
      rw [scaleByPowerOfTwo_large hlarge.1 hlarge.2]
      exact ⟨_, rfl, rfl⟩

def Spelling.threeSixteenths : Spelling :=
  ⟨some 'x', ['1'], some ['8'], some ⟨'p', some '-', ['3']⟩⟩

def Spelling.tooLargePower : Spelling :=
  ⟨some 'X', ['1'], none, some ⟨'P', none, ['4', '0', '9', '7']⟩⟩

def Spelling.largestByte : Spelling :=
  ⟨some 'x', ['F', 'f'], none, none⟩

theorem Spelling.scanNumeral_threeSixteenths
    : (∃ d, scanNumeral "0x1.8p-3f".toList = .ok (.float d, ['f']) ∧ d.value = 3 / 16) ∧
      (∃ c, scanNumeral "0X1P4097".toList = .error c ∧ c.kind = .unsupported) ∧
      scanNumeral "0xFf-1".toList = .ok (.int 255, ['-', '1']) := by
  obtain ⟨hfraction, hpower, hinteger⟩
      : threeSixteenths.WellFormed ∧ tooLargePower.WellFormed ∧ largestByte.WellFormed := by
    unfold threeSixteenths tooLargePower largestByte
    refine ⟨?_, ?_, ?_⟩
    all_goals exact
      { hexMark := by simp
        digits := by simp [digits, isDigit, isHex, isHexDigit]
        digits_ne_nil := by simp [digits]
        mark := by simp [isMark, isHex]
        sign := by simp
        exponent := by simp
        exponent_ne_nil := by simp
        fraction := by simp }
  have hf : threeSixteenths.EndsBefore ['f'] := endsBefore_cons (by decide) _
  have hminus : largestByte.EndsBefore ['-', '1'] := endsBefore_cons (by decide) _
  refine ⟨?_, ?_, ?_⟩
  . obtain ⟨d, hscan, hvalue⟩ :=
      (scanNumeral_hex hfraction rfl hf).2 (by decide) (by decide) (by decide)
    refine ⟨d, hscan, ?_⟩
    have hnumber : hexNumber threeSixteenths.digits = 24 := by decide
    have hshift : threeSixteenths.shift = -7 := by decide
    rw [hvalue, hnumber, hshift]
    norm_num
  . exact (scanNumeral_hex hpower rfl (endsBefore_nil _)).2 (by decide) (by decide) (by decide)
  . exact (scanNumeral_hex hinteger rfl hminus).1 rfl

end Runbook.Calc
