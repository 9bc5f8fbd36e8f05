import Runbook.Calc.Error
import Runbook.Text.Blank
import Runbook.Text.Digit

/-!
This module contains the reading of an expression's tokens.
-/

namespace Runbook.Calc

open Number Text

def maxShift : Nat := 4096

def maxExponent : Nat := 1233

structure Numeral where
  whole : List Char
  fraction : Option (List Char)
  negative : Bool
  exponent : Option (List Char)

namespace Numeral

def readDigits (isDigit : Char → Bool) (cs : List Char) :
    List Char × Option (List Char) × List Char :=
  match cs.dropWhile isDigit with
  | '.' :: rest =>
    (cs.takeWhile isDigit, some (rest.takeWhile isDigit), rest.dropWhile isDigit)
  | rest => (cs.takeWhile isDigit, none, rest)

def readSign : List Char → Bool × List Char
  | '+' :: rest => (false, rest)
  | '-' :: rest => (true, rest)
  | rest => (false, rest)

def readExponent (isMark : Char → Bool) (cs : List Char) : Bool × Option (List Char) × List Char :=
  match cs with
  | [] => (false, none, [])
  | m :: rest =>
    if isMark m then
      let (negative, rest) := readSign rest
      (negative, some (rest.takeWhile Char.isDigit), rest.dropWhile Char.isDigit)
    else
      (false, none, m :: rest)

def read (isDigit isMark : Char → Bool) (cs : List Char) : Numeral × List Char :=
  let (whole, fraction, rest) := readDigits isDigit cs
  let (negative, exponent, rest) := readExponent isMark rest
  (⟨whole, fraction, negative, exponent⟩, rest)

def digits (n : Numeral) : List Char :=
  n.whole ++ n.fraction.getD []

def places (n : Numeral) : Nat :=
  (n.fraction.getD []).length

theorem length_dropWhile_le (p : Char → Bool) (cs : List Char) :
    (cs.dropWhile p).length ≤ cs.length :=
  (List.dropWhile_suffix p).length_le

theorem readDigits_length (isDigit : Char → Bool) (cs : List Char) :
    (readDigits isDigit cs).2.2.length ≤ (cs.dropWhile isDigit).length := by
  unfold readDigits
  split
  . rename_i rest heq
    have := length_dropWhile_le isDigit rest
    simp only [heq, List.length_cons]
    omega
  . simp

theorem readDigits_cons_length {isDigit : Char → Bool} {c : Char} (cs : List Char)
    (h : isDigit c ∨ c = '.') : (readDigits isDigit (c :: cs)).2.2.length ≤ cs.length := by
  have hd := length_dropWhile_le isDigit cs
  by_cases hc : isDigit c
  . have := readDigits_length isDigit (c :: cs)
    simp only [List.dropWhile_cons, hc, if_true] at this
    omega
  . obtain rfl := h.resolve_left hc
    simpa [readDigits, List.dropWhile_cons, hc] using hd

theorem readSign_length (cs : List Char) : (readSign cs).2.length ≤ cs.length := by
  unfold readSign
  split <;> simp

theorem readExponent_length (isMark : Char → Bool) (cs : List Char) :
    (readExponent isMark cs).2.2.length ≤ cs.length := by
  unfold readExponent
  split
  . simp
  . rename_i m rest
    split
    . have := readSign_length rest
      have := length_dropWhile_le Char.isDigit (readSign rest).2
      simp only [List.length_cons]
      omega
    . simp

theorem read_length (isDigit isMark : Char → Bool) (cs : List Char) :
    (read isDigit isMark cs).2.length ≤ cs.length :=
  Nat.le_trans (readExponent_length _ _)
    (Nat.le_trans (readDigits_length _ _) (length_dropWhile_le _ _))

theorem read_cons_length {isDigit : Char → Bool} (isMark : Char → Bool) {c : Char} (cs : List Char)
    (h : isDigit c ∨ c = '.') : (read isDigit isMark (c :: cs)).2.length ≤ cs.length :=
  Nat.le_trans (readExponent_length _ _) (readDigits_cons_length cs h)

def decimalToken (n : Numeral) : Except Cause Token :=
  match n.exponent with
  | some [] => throw .exponentWithoutDigits
  | some ds =>
    let exponent := digitsValue 10 ds
    if maxExponent < exponent then throw (.decimalExponent (String.ofList ds))
    else
      let exponent : Int := if n.negative then -exponent else exponent
      pure (.float ⟨digitsValue 10 n.digits, n.places - exponent⟩)
  | none =>
    if n.fraction.isSome then pure (.float ⟨digitsValue 10 n.digits, n.places⟩)
    else pure (.int (digitsValue 10 n.digits))

/--
The decimal `mantissa · 2 ^ exponent`, which is exact at any exponent in range.
-/
def scaleByPowerOfTwo (mantissa : Nat) (exponent : Int) : Except Cause Decimal :=
  if mantissa = 0 then pure ⟨0, 0⟩
  else if maxShift < exponent.natAbs then throw (.binaryExponent (toString exponent))
  else if 0 ≤ exponent then pure ⟨mantissa * 2 ^ exponent.toNat, 0⟩
  else pure ⟨mantissa * 5 ^ exponent.natAbs, exponent.natAbs⟩

def hexToken (n : Numeral) : Except Cause Token := do
  if n.digits.isEmpty then throw .hexWithoutDigits
  let mantissa := digitsValue 16 n.digits
  match n.exponent with
  | some [] => throw .hexExponentWithoutDigits
  | some ds =>
    -- The exponent stays within 64 bits, as written and less the bits behind the point.
    if 2 ^ 63 ≤ digitsValue 10 ds then throw (.binaryExponent (String.ofList ds))
    let exponent : Int := if n.negative then -digitsValue 10 ds else digitsValue 10 ds
    let shifted := exponent - 4 * n.places
    if shifted < -2 ^ 63 then throw (.binaryExponent (toString exponent))
    return .float (← scaleByPowerOfTwo mantissa shifted)
  | none =>
    if n.fraction.isSome then throw .hexFloatWithoutExponent
    return .int mantissa

end Numeral

/--
Whether a numeral starts here: a digit, or a point before a digit.
-/
def startsNumeral : List Char → Bool
  | '.' :: c :: _ => c.isDigit
  | c :: _ => c.isDigit
  | [] => false

def startsHex : List Char → Bool
  | '0' :: x :: c :: _ => (x == 'x' || x == 'X') && (isHexDigit c || c == '.')
  | _ => false

def scanNumeral (cs : List Char) : Except Cause (Token × List Char) :=
  if startsHex cs then
    let (n, rest) := Numeral.read isHexDigit (fun c => c == 'p' || c == 'P') (cs.drop 2)
    n.hexToken.map (·, rest)
  else
    let (n, rest) := Numeral.read Char.isDigit (fun c => c == 'e' || c == 'E') cs
    n.decimalToken.map (·, rest)

def Symbol.read : List Char → Option (Token × List Char)
  | '(' :: cs => some (.lparen, cs)
  | ')' :: cs => some (.rparen, cs)
  | '&' :: '&' :: cs => some (.op (.binary (.connective .and)), cs)
  | '&' :: '^' :: cs => some (.op (.binary (.bitwise .andNot)), cs)
  | '&' :: cs => some (.op (.binary (.bitwise .and)), cs)
  | '|' :: '|' :: cs => some (.op (.binary (.connective .or)), cs)
  | '|' :: cs => some (.op (.binary (.bitwise .or)), cs)
  | '<' :: '<' :: cs => some (.op (.binary (.bitwise .shl)), cs)
  | '<' :: '=' :: cs => some (.op (.binary (.comparison .le)), cs)
  | '<' :: cs => some (.op (.binary (.comparison .lt)), cs)
  | '>' :: '>' :: cs => some (.op (.binary (.bitwise .shr)), cs)
  | '>' :: '=' :: cs => some (.op (.binary (.comparison .ge)), cs)
  | '>' :: cs => some (.op (.binary (.comparison .gt)), cs)
  | '=' :: '=' :: cs => some (.op (.binary (.comparison .eq)), cs)
  | '!' :: '=' :: cs => some (.op (.binary (.comparison .ne)), cs)
  | '!' :: cs => some (.op .bang, cs)
  | '+' :: cs => some (.op (.binary (.arithmetic .add)), cs)
  | '-' :: cs => some (.op (.binary (.arithmetic .sub)), cs)
  | '*' :: cs => some (.op (.binary (.arithmetic .mul)), cs)
  | '/' :: cs => some (.op (.binary (.arithmetic .div)), cs)
  | '%' :: cs => some (.op (.binary (.bitwise .rem)), cs)
  | '^' :: cs => some (.op (.binary (.bitwise .xor)), cs)
  | '~' :: cs => some (.op .tilde, cs)
  | _ => none

theorem Symbol.read_length {cs rest : List Char} {t : Token}
    (h : Symbol.read cs = some (t, rest)) : rest.length < cs.length := by
  unfold Symbol.read at h
  split at h <;> simp at h <;> obtain ⟨_, rfl⟩ := h <;>
    simp only [List.length_cons] <;> omega

theorem scanNumeral_length {cs rest : List Char} {t : Token} (hs : startsNumeral cs)
    (h : scanNumeral cs = .ok (t, rest)) : rest.length < cs.length := by
  unfold scanNumeral at h
  split at h
  . rename_i hx
    obtain ⟨x, c, cs', rfl⟩ : ∃ x c cs', cs = '0' :: x :: c :: cs' := by
      unfold startsHex at hx
      split at hx
      . exact ⟨_, _, _, rfl⟩
      . simp at hx
    have hl := Numeral.read_length isHexDigit (fun c => c == 'p' || c == 'P') (c :: cs')
    simp only [List.drop_succ_cons, List.drop_zero, Except.map] at h
    split at h
    . simp at h
    . simp only [Except.ok.injEq, Prod.mk.injEq] at h
      simp only [← h.2, List.length_cons] at hl ⊢
      omega
  . obtain ⟨c, cs', rfl, hc⟩ : ∃ c cs', cs = c :: cs' ∧ (c.isDigit ∨ c = '.') := by
      unfold startsNumeral at hs
      split at hs
      . exact ⟨_, _, rfl, .inr rfl⟩
      . exact ⟨_, _, rfl, .inl hs⟩
      . simp at hs
    have hl := Numeral.read_cons_length (fun c => c == 'e' || c == 'E') cs' hc
    simp only [Except.map] at h
    split at h
    . simp at h
    . simp only [Except.ok.injEq, Prod.mk.injEq] at h
      simp only [← h.2, List.length_cons] at hl ⊢
      omega

def scan (size : Nat) (cs : List Char) : Except Cause (List Token) :=
  match cs with
  | [] => pure []
  | c :: rest =>
    if isBlank c then scan size rest
    else if hs : startsNumeral (c :: rest) then
      match h : scanNumeral (c :: rest) with
      | .error e => throw e
      | .ok (t, rest') =>
        have := scanNumeral_length hs h
        (scan size rest').map (t :: ·)
    else if c.isAlpha then
      let word := c :: rest.takeWhile Char.isAlphanum
      have := Numeral.length_dropWhile_le Char.isAlphanum rest
      if word = "true".toList then
        (scan size (rest.dropWhile Char.isAlphanum)).map (.bool true :: ·)
      else if word = "false".toList then
        (scan size (rest.dropWhile Char.isAlphanum)).map (.bool false :: ·)
      else
        throw (.identifier (String.ofList word))
    else
      match h : Symbol.read (c :: rest) with
      | some (t, rest') =>
        have := Symbol.read_length h
        (scan size rest').map (t :: ·)
      | none => throw (.character c (size - (rest.length + 1)))
termination_by cs.length
decreasing_by
  all_goals simp only [List.length_cons] at *
  all_goals omega

def tokens (text : String) : Except Cause (List Token) :=
  scan text.toList.length text.toList

end Runbook.Calc
