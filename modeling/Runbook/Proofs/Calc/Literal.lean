import Runbook.Calc.Scan
import Runbook.Proofs.Text.Numeral

/-!
This module contains the literals of expressions as they are written, the tokens they stand for, and
the proof that the scanner reads exactly these.
-/

namespace Runbook.Calc

open Number Text

/--
An exponent as written: the letter in front, the sign if there is one, and the digits.
-/
structure Exponent where
  mark : Char
  sign : Option Char
  digits : List Char

namespace Exponent

def chars (x : Exponent) : List Char :=
  x.mark :: (x.sign.toList ++ x.digits)

def magnitude (x : Exponent) : Nat :=
  digitsValue 10 x.digits

def value (x : Exponent) : Int :=
  if x.sign = some '-' then -x.magnitude else x.magnitude

end Exponent

/--
A numeral as written. The letter behind the zero marks radix sixteen.
-/
structure Spelling where
  hexMark : Option Char
  whole : List Char
  fraction : Option (List Char)
  exponent : Option Exponent

namespace Spelling

def body (s : Spelling) : List Char :=
  s.whole ++ ((s.fraction.map ('.' :: ·)).getD [] ++ (s.exponent.map Exponent.chars).getD [])

def chars (s : Spelling) : List Char :=
  match s.hexMark with
  | some x => '0' :: x :: s.body
  | none => s.body

def isHex (s : Spelling) : Bool :=
  s.hexMark.isSome

def isDigit (s : Spelling) (c : Char) : Bool :=
  if s.isHex then isHexDigit c else c.isDigit

def isMark (s : Spelling) (c : Char) : Bool :=
  if s.isHex then c == 'p' || c == 'P' else c == 'e' || c == 'E'

def digits (s : Spelling) : List Char :=
  s.whole ++ s.fraction.getD []

def places (s : Spelling) : Nat :=
  (s.fraction.getD []).length

def mantissa (s : Spelling) : Nat :=
  digitsValue (if s.isHex then 16 else 10) s.digits

def power (s : Spelling) : Int :=
  (s.exponent.map Exponent.value).getD 0

def shift (s : Spelling) : Int :=
  s.power - 4 * s.places

/--
The numeral has digits, all of its radix, and its exponent has some too. A hexadecimal fraction
needs an exponent.
-/
structure WellFormed (s : Spelling) : Prop where
  hexMark : ∀ x ∈ s.hexMark, x = 'x' ∨ x = 'X'
  digits : ∀ c ∈ s.digits, s.isDigit c
  digits_ne_nil : s.digits ≠ []
  mark : ∀ x ∈ s.exponent, s.isMark x.mark
  sign : ∀ x ∈ s.exponent, ∀ c ∈ x.sign, c = '+' ∨ c = '-'
  exponent : ∀ x ∈ s.exponent, ∀ c ∈ x.digits, c.isDigit
  exponent_ne_nil : ∀ x ∈ s.exponent, x.digits ≠ []
  fraction : s.isHex → s.fraction.isSome → s.exponent.isSome

def InRange (s : Spelling) : Prop :=
  ∀ x ∈ s.exponent,
    if s.isHex then
      x.magnitude < 2 ^ 63 ∧ -2 ^ 63 ≤ s.shift ∧ (s.mantissa = 0 ∨ s.shift.natAbs ≤ maxShift)
    else
      x.magnitude ≤ maxExponent

def binaryFloat (mantissa : Nat) (shift : Int) : Decimal :=
  if mantissa = 0 then ⟨0, 0⟩
  else if 0 ≤ shift then ⟨mantissa * 2 ^ shift.toNat, 0⟩
  else ⟨mantissa * 5 ^ shift.natAbs, shift.natAbs⟩

def number (s : Spelling) : Nat ⊕ Decimal :=
  if s.fraction.isNone && s.exponent.isNone then .inl s.mantissa
  else if s.isHex then .inr (binaryFloat s.mantissa s.shift)
  else .inr ⟨s.mantissa, s.places - s.power⟩

def token (s : Spelling) : Token :=
  s.number.elim .int .float

def numeral (s : Spelling) : Numeral :=
  { whole := s.whole
    fraction := s.fraction
    negative := s.exponent.any (·.sign == some '-')
    exponent := s.exponent.map Exponent.digits }

end Spelling

structure Literal extends Spelling where
  wellFormed : toSpelling.WellFormed
  inRange : toSpelling.InRange

def Literal.decimal (ds : List Char) (hdigits : ds.all Char.isDigit) (hne : ds ≠ []) : Literal where
  hexMark := none
  whole := ds
  fraction := none
  exponent := none
  wellFormed :=
    { hexMark := by simp
      digits := by simpa [Spelling.digits, Spelling.isDigit, Spelling.isHex] using hdigits
      digits_ne_nil := by simpa [Spelling.digits] using hne
      mark := by simp
      sign := by simp
      exponent := by simp
      exponent_ne_nil := by simp
      fraction := by simp }
  inRange := by simp [Spelling.InRange]

def Ends (rest : List Char) : Prop :=
  ∀ c ∈ rest.head?, isBlank c

def Spelling.goesOn (s : Spelling) (c : Char) : Bool :=
  if s.exponent.isSome then c.isDigit
  else s.isDigit c || s.isMark c || (c == '.' && s.fraction.isNone)

/--
Nothing that `rest` starts with could be a part of the numeral.
-/
def Spelling.EndsBefore (s : Spelling) (rest : List Char) : Prop :=
  ∀ c ∈ rest.head?, s.goesOn c = false

theorem Spelling.endsBefore_nil (s : Spelling) : s.EndsBefore [] := by
  intro c hc
  cases hc

theorem Spelling.endsBefore_cons {s : Spelling} {c : Char} (h : s.goesOn c = false)
    (rest : List Char) : s.EndsBefore (c :: rest) := by
  intro d hd
  cases hd
  exact h

theorem isAlpha_eq (c : Char) : c.isAlpha =
    (decide (c.val ≥ 'A'.val ∧ c.val ≤ 'Z'.val) || (c.val ≥ 'a'.val && c.val ≤ 'z'.val)) :=
  rfl

theorem not_isAlphanum_of_isBlank {c : Char} (h : isBlank c) : c.isAlphanum = false := by
  simp only [isBlank, Char.toNat, Bool.or_eq_true, Bool.and_eq_true, decide_eq_true_eq] at h
  simp only [Char.isAlphanum, isAlpha_eq, Char.isDigit,
    Bool.or_eq_false_iff, Bool.and_eq_false_imp, decide_eq_true_eq, decide_eq_false_iff_not,
    UInt32.le_iff_toNat_le, ge_iff_le, Char.reduceVal, UInt32.reduceToNat]
  omega

theorem isAlphanum_of_isHexDigit {c : Char} (h : isHexDigit c) : c.isAlphanum := by
  simp only [isHexDigit, Char.isDigit, Bool.or_eq_true, Bool.and_eq_true, decide_eq_true_eq,
    Char.le_def, UInt32.le_iff_toNat_le, ge_iff_le, Char.reduceVal, UInt32.reduceToNat] at h
  simp only [Char.isAlphanum, isAlpha_eq, Char.isDigit,
    Bool.or_eq_true, Bool.and_eq_true, decide_eq_true_eq,
    UInt32.le_iff_toNat_le, ge_iff_le, Char.reduceVal, UInt32.reduceToNat]
  omega

theorem isHexDigit_of_isDigit {c : Char} (h : c.isDigit) : isHexDigit c := by
  simp [isHexDigit, h]

namespace Numeral

theorem readDigits_append {isDigit : Char → Bool} {whole rest : List Char}
    {fraction : Option (List Char)} (hdot : isDigit '.' = false) (hwhole : ∀ c ∈ whole, isDigit c)
    (hfraction : ∀ c ∈ fraction.getD [], isDigit c) (hrest : ∀ c ∈ rest.head?, isDigit c = false)
    (hnone : fraction = none → '.' ∉ rest.head?)
    : readDigits isDigit (whole ++ ((fraction.map ('.' :: ·)).getD [] ++ rest))
        =
      (whole, fraction, rest) := by
  unfold readDigits
  cases fraction with
  | none =>
    simp only [Option.map_none, Option.getD_none, List.nil_append]
    rw [takeWhile_append_stop hwhole hrest, dropWhile_append_stop hwhole hrest]
    split
    . simp at hnone
    . rfl
  | some ds =>
    simp only [Option.map_some, Option.getD_some, List.cons_append] at hfraction ⊢
    have hstop : ∀ c ∈ ('.' :: (ds ++ rest)).head?, isDigit c = false := by simpa using hdot
    rw [takeWhile_append_stop hwhole hstop, dropWhile_append_stop hwhole hstop]
    show (whole, some ((ds ++ rest).takeWhile isDigit), (ds ++ rest).dropWhile isDigit) = _
    rw [takeWhile_append_stop hfraction hrest, dropWhile_append_stop hfraction hrest]

theorem readSign_append {sign : Option Char} {ds rest : List Char}
    (hsign : ∀ c ∈ sign, c = '+' ∨ c = '-') (hds : ∀ c ∈ ds, c.isDigit) (hne : ds ≠ [])
    : readSign (sign.toList ++ ds ++ rest) = (sign == some '-', ds ++ rest) := by
  cases sign with
  | none =>
    cases ds with
    | nil => simp at hne
    | cons c ds =>
      have hc := hds c (List.mem_cons_self ..)
      simp only [Option.toList_none, List.nil_append, List.cons_append]
      unfold readSign
      split
      . next heq =>
        obtain ⟨rfl, _⟩ := List.cons.inj heq
        simp [Char.isDigit] at hc
      . next heq =>
        obtain ⟨rfl, _⟩ := List.cons.inj heq
        simp [Char.isDigit] at hc
      . simp
  | some c =>
    cases hsign c rfl with
    | inl h => subst h; rfl
    | inr h => subst h; rfl

theorem readExponent_append {isMark : Char → Bool} {exponent : Option Exponent} {rest : List Char}
    (hmark : ∀ x ∈ exponent, isMark x.mark)
    (hsign : ∀ x ∈ exponent, ∀ c ∈ x.sign, c = '+' ∨ c = '-')
    (hds : ∀ x ∈ exponent, ∀ c ∈ x.digits, c.isDigit) (hne : ∀ x ∈ exponent, x.digits ≠ [])
    (hrest : ∀ c ∈ rest.head?, if exponent.isSome then c.isDigit = false else isMark c = false)
    : readExponent isMark ((exponent.map Exponent.chars).getD [] ++ rest)
        =
      (exponent.any (·.sign == some '-'), exponent.map Exponent.digits, rest) := by
  cases exponent with
  | none =>
    simp only [Option.map_none, Option.getD_none, List.nil_append]
    cases rest with
    | nil => rfl
    | cons c rest =>
      have hc : isMark c = false := hrest c rfl
      simp [readExponent, hc]
  | some x =>
    simp only [Option.map_some, Option.getD_some, Exponent.chars, List.cons_append]
    unfold readExponent
    dsimp only
    rw [if_pos (hmark x rfl), readSign_append (hsign x rfl) (hds x rfl) (hne x rfl)]
    have hstop : ∀ c ∈ rest.head?, c.isDigit = false := hrest
    dsimp only
    rw [takeWhile_append_stop (hds x rfl) hstop, dropWhile_append_stop (hds x rfl) hstop]
    simp

theorem hexToken_eq {n : Numeral} (h : n.digits ≠ [])
    : n.hexToken =
      match n.exponent with
      | some [] => .error .hexExponentWithoutDigits
      | some ds =>
        let exponent : Int := if n.negative then -digitsValue 10 ds else digitsValue 10 ds
        let shift := exponent - 4 * n.places
        if 2 ^ 63 ≤ digitsValue 10 ds then .error (.binaryExponent (String.ofList ds))
        else if shift < -2 ^ 63 then .error (.binaryExponent (toString exponent))
        else (scaleByPowerOfTwo (digitsValue 16 n.digits) shift).map .float
      | none =>
        if n.fraction.isSome then .error .hexFloatWithoutExponent
        else .ok (.int (digitsValue 16 n.digits)) := by
  have hdigits : n.digits.isEmpty = false := by simpa using h
  unfold hexToken
  simp only [hdigits, Bool.false_eq_true, if_false]
  cases n.exponent with
  | none =>
    dsimp only
    split <;> rfl
  | some ds =>
    cases ds with
    | nil => rfl
    | cons d ds =>
      dsimp only
      split
      . rfl
      . split
        . rfl
        . cases scaleByPowerOfTwo (digitsValue 16 n.digits) _ <;> rfl

theorem digits_ne_nil_of_hexToken {n : Numeral} {t : Token} (h : n.hexToken = .ok t)
    : n.digits ≠ [] := by
  intro hd
  unfold hexToken at h
  rw [hd] at h
  cases h

end Numeral

namespace Spelling

theorem isDigit_of_isHex {s : Spelling} (h : s.isHex) : s.isDigit = isHexDigit := by
  funext c
  simp [isDigit, h]

theorem isDigit_of_not_isHex {s : Spelling} (h : s.isHex = false) : s.isDigit = Char.isDigit := by
  funext c
  simp [isDigit, h]

theorem isMark_of_isHex {s : Spelling} (h : s.isHex)
    : s.isMark = fun c => c == 'p' || c == 'P' := by
  funext c
  simp [isMark, h]

theorem isMark_of_not_isHex {s : Spelling} (h : s.isHex = false)
    : s.isMark = fun c => c == 'e' || c == 'E' := by
  funext c
  simp [isMark, h]

theorem isDigit_dot (s : Spelling) : s.isDigit '.' = false := by
  unfold isDigit
  split <;> decide

theorem isAlphanum_of_isDigit {s : Spelling} {c : Char} (h : s.isDigit c) : c.isAlphanum := by
  unfold isDigit at h
  split at h
  . exact isAlphanum_of_isHexDigit h
  . exact isAlphanum_of_isHexDigit (isHexDigit_of_isDigit h)

theorem isDigit_of_isMark {s : Spelling} {c : Char} (h : s.isMark c)
    : s.isDigit c = false ∧ c ≠ '.' ∧ c.isAlphanum := by
  unfold isMark at h
  unfold isDigit
  split at h
  . next hx =>
    simp only [hx, if_true]
    simp only [Bool.or_eq_true, beq_iff_eq] at h
    rcases h with rfl | rfl <;> decide
  . next hx =>
    simp only [hx]
    simp only [Bool.or_eq_true, beq_iff_eq] at h
    rcases h with rfl | rfl <;> decide

theorem endsBefore_of_ends (s : Spelling) {rest : List Char} (h : Ends rest)
    : s.EndsBefore rest := by
  intro c hc
  have hb := not_isAlphanum_of_isBlank (h c hc)
  apply Bool.eq_false_iff.mpr
  intro hgoes
  unfold goesOn at hgoes
  split at hgoes
  . simp [isAlphanum_of_isHexDigit (isHexDigit_of_isDigit hgoes)] at hb
  . simp only [Bool.or_eq_true, Bool.and_eq_true, beq_iff_eq] at hgoes
    rcases hgoes with (hd | hm) | ⟨rfl, _⟩
    . simp [isAlphanum_of_isDigit hd] at hb
    . simp [(isDigit_of_isMark hm).2.2] at hb
    . exact absurd (h _ hc) (by decide)

theorem head_behind_digits {s : Spelling} (hs : s.WellFormed) {rest : List Char}
    (hrest : s.EndsBefore rest)
    : ∀ c ∈ ((s.exponent.map Exponent.chars).getD [] ++ rest).head?,
        s.isDigit c = false ∧ (s.fraction = none → c ≠ '.') := by
  intro c hc
  cases hx : s.exponent with
  | none =>
    simp only [hx, Option.map_none, Option.getD_none, List.nil_append] at hc
    have hgoes := hrest c hc
    simp only [goesOn, hx, Option.isSome_none, Bool.false_eq_true, if_false, Bool.or_eq_false_iff,
      Bool.and_eq_false_imp, beq_iff_eq] at hgoes
    refine ⟨hgoes.1.1, ?_⟩
    rintro hnone rfl
    simpa [hnone] using hgoes.2 rfl
  | some x =>
    simp only [hx, Option.map_some, Option.getD_some, Exponent.chars, List.cons_append,
      List.head?_cons, Option.mem_def, Option.some.injEq] at hc
    have hm := isDigit_of_isMark (hs.mark x hx)
    rw [hc] at hm
    exact ⟨hm.1, fun _ => hm.2.1⟩

theorem read_body {s : Spelling} (hs : s.WellFormed) {rest : List Char}
    (hrest : s.EndsBefore rest)
    : Numeral.read s.isDigit s.isMark (s.body ++ rest) = (s.numeral, rest) := by
  have hwhole : ∀ c ∈ s.whole, s.isDigit c := fun c hc => hs.digits c (List.mem_append_left _ hc)
  have hfraction : ∀ c ∈ s.fraction.getD [], s.isDigit c :=
    fun c hc => hs.digits c (List.mem_append_right _ hc)
  have hhead := head_behind_digits hs hrest
  have hstop : ∀ c ∈ rest.head?,
      if s.exponent.isSome then c.isDigit = false else s.isMark c = false := by
    intro c hc
    have hgoes := hrest c hc
    unfold goesOn at hgoes
    split
    . next hsome => rwa [if_pos hsome] at hgoes
    . next hnone =>
      rw [if_neg hnone, Bool.or_eq_false_iff, Bool.or_eq_false_iff] at hgoes
      exact hgoes.1.2
  unfold Numeral.read body
  rw [List.append_assoc, List.append_assoc]
  rw [Numeral.readDigits_append (isDigit_dot s) hwhole hfraction (fun c hc => (hhead c hc).1)
    (fun hnone hc => (hhead _ hc).2 hnone rfl)]
  dsimp only
  rw [Numeral.readExponent_append hs.mark hs.sign hs.exponent hs.exponent_ne_nil hstop]
  rfl

theorem power_eq {s : Spelling} {x : Exponent} (hx : s.exponent = some x) : s.power = x.value := by
  simp [power, hx]

theorem numeral_exponent {s : Spelling} {x : Exponent} (hx : s.exponent = some x)
    : (if s.numeral.negative then -(x.magnitude : Int) else x.magnitude) = x.value := by
  simp [numeral, hx, Exponent.value]

theorem decimalToken_numeral {s : Spelling} (hs : s.WellFormed) (hr : s.InRange)
    (hx : s.isHex = false) : s.numeral.decimalToken = .ok s.token := by
  unfold Numeral.decimalToken
  cases he : s.exponent with
  | none =>
    have hm : s.numeral.exponent = none := by simp [numeral, he]
    rw [hm]
    cases hf : s.fraction <;>
      simp [token, number, numeral, hx, he, hf, mantissa, Numeral.digits, digits, Numeral.places,
        places, power, pure, Except.pure]
  | some x =>
    obtain ⟨d, ds, hd⟩ := List.exists_cons_of_ne_nil (hs.exponent_ne_nil x he)
    have hm : s.numeral.exponent = some (d :: ds) := by simp [numeral, he, hd]
    have hle : ¬ maxExponent < digitsValue 10 (d :: ds) := by
      have := hr x he
      simp only [hx, Bool.false_eq_true, if_false, Exponent.magnitude, hd] at this
      omega
    have hv := numeral_exponent he
    rw [Exponent.magnitude, hd] at hv
    rw [hm]
    dsimp only
    rw [if_neg hle, hv]
    simp [token, number, numeral, hx, he, mantissa, Numeral.digits, digits, Numeral.places, places,
        power, pure, Except.pure]

theorem scaleByPowerOfTwo_eq {m : Nat} {e : Int} (h : m = 0 ∨ e.natAbs ≤ maxShift)
    : Numeral.scaleByPowerOfTwo m e = .ok (binaryFloat m e) := by
  unfold Numeral.scaleByPowerOfTwo binaryFloat
  split
  . rfl
  . next hm =>
    rw [if_neg (by omega)]
    split <;> rfl

theorem scaleByPowerOfTwo_large {m : Nat} {e : Int} (hm : m ≠ 0) (he : maxShift < e.natAbs)
    : Numeral.scaleByPowerOfTwo m e = .error (.binaryExponent (toString e)) := by
  unfold Numeral.scaleByPowerOfTwo
  rw [if_neg hm, if_pos he]
  rfl

theorem le_maxShift_of_scaleByPowerOfTwo {m : Nat} {e : Int} {d : Decimal}
    (h : Numeral.scaleByPowerOfTwo m e = .ok d) : m = 0 ∨ e.natAbs ≤ maxShift := by
  unfold Numeral.scaleByPowerOfTwo at h
  split at h
  . next hm => exact .inl hm
  . split at h
    . cases h
    . next hle => exact .inr (Nat.le_of_not_lt hle)

theorem digitsValue_numeral {s : Spelling} (hx : s.isHex)
    : digitsValue 16 s.numeral.digits = s.mantissa := by
  simp [mantissa, hx, numeral, Numeral.digits, digits]

theorem hexToken_int {s : Spelling} (hs : s.WellFormed) (hx : s.isHex) (he : s.exponent = none)
    : s.numeral.hexToken = .ok (.int s.mantissa) := by
  have hf : s.fraction = none := by
    cases hf : s.fraction with
    | none => rfl
    | some f => simpa [he, hf] using hs.fraction hx
  have hm : s.numeral.exponent = none := by simp [numeral, he]
  have hn : s.numeral.fraction = none := by simp [numeral, hf]
  rw [Numeral.hexToken_eq (n := s.numeral) hs.digits_ne_nil, hm, hn, digitsValue_numeral hx]
  rfl

theorem hexToken_float {s : Spelling} (hx : s.isHex) (hne : s.digits ≠ []) {x : Exponent}
    (he : s.exponent = some x) (hdigits : x.digits ≠ [])
    : s.numeral.hexToken
        =
      if 2 ^ 63 ≤ x.magnitude then .error (.binaryExponent (String.ofList x.digits))
      else if s.shift < -2 ^ 63 then .error (.binaryExponent (toString x.value))
      else (Numeral.scaleByPowerOfTwo s.mantissa s.shift).map .float := by
  obtain ⟨d, ds, hds⟩ := List.exists_cons_of_ne_nil hdigits
  have hm : s.numeral.exponent = some (d :: ds) := by simp [numeral, he, hds]
  have hv := numeral_exponent he
  have hshift : x.value - 4 * s.numeral.places = s.shift := by
    rw [shift, power_eq he]
    rfl
  rw [Exponent.magnitude, hds] at hv ⊢
  rw [Numeral.hexToken_eq (n := s.numeral) hne, hm, digitsValue_numeral hx]
  dsimp only
  rw [hv, hshift]

theorem hexToken_numeral {s : Spelling} (hs : s.WellFormed) (hr : s.InRange) (hx : s.isHex)
    : s.numeral.hexToken = .ok s.token := by
  cases he : s.exponent with
  | none =>
    rw [hexToken_int hs hx he]
    cases hf : s.fraction with
    | none => simp [token, number, he, hf]
    | some f => simpa [he, hf] using hs.fraction hx
  | some x =>
    have hin := hr x he
    rw [if_pos hx] at hin
    rw [hexToken_float hx hs.digits_ne_nil he (hs.exponent_ne_nil x he),
      if_neg (Nat.not_le.mpr hin.1), if_neg (Int.not_lt.mpr hin.2.1), scaleByPowerOfTwo_eq hin.2.2]
    simp [token, number, he, hx, Except.map]

theorem body_eq_cons {s : Spelling} (hs : s.WellFormed)
    : ∃ c cs, s.body = c :: cs ∧
        (s.isDigit c ∨ (c = '.' ∧ ∃ d ds, cs = d :: ds ∧ s.isDigit d)) := by
  have hne := hs.digits_ne_nil
  have hdigits := hs.digits
  unfold digits at hne hdigits
  unfold body
  cases hw : s.whole with
  | cons c cs =>
    rw [hw] at hdigits
    exact ⟨c, _, rfl, .inl (hdigits c (by simp))⟩
  | nil =>
    rw [hw, List.nil_append] at hne hdigits
    obtain ⟨d, ds, hf⟩ := List.exists_cons_of_ne_nil hne
    have hsome : s.fraction = some (d :: ds) := by
      cases hfr : s.fraction with
      | none => simp [hfr] at hf
      | some f => simpa [hfr] using hf
    rw [hsome]
    exact ⟨'.', _, rfl, .inr ⟨rfl, d, _, rfl, hdigits d (by simp [hf])⟩⟩

theorem startsNumeral_chars {s : Spelling} (hs : s.WellFormed) (rest : List Char)
    : startsNumeral (s.chars ++ rest) := by
  unfold chars
  cases hx : s.hexMark with
  | some x => rfl
  | none =>
    have hhex : s.isHex = false := by simp [isHex, hx]
    obtain ⟨c, cs, heq, h⟩ := body_eq_cons hs
    rw [isDigit_of_not_isHex hhex] at h
    dsimp only
    rw [heq]
    cases h with
    | inl h =>
      unfold startsNumeral
      split
      . next heq =>
        obtain ⟨rfl, _⟩ := List.cons.inj heq
        simp [Char.isDigit] at h
      . next heq =>
        obtain ⟨rfl, _⟩ := List.cons.inj heq
        exact h
      . next heq => cases heq
    | inr h =>
      obtain ⟨rfl, d, ds, rfl, hd⟩ := h
      exact hd

theorem startsHex_of_isHex {s : Spelling} (hs : s.WellFormed) {x : Char} (hx : s.hexMark = some x)
    (rest : List Char) : startsHex ('0' :: x :: (s.body ++ rest)) := by
  have hhex : s.isHex := by simp [isHex, hx]
  obtain ⟨c, cs, heq, h⟩ := body_eq_cons hs
  rw [isDigit_of_isHex hhex] at h
  have hc : isHexDigit c ∨ c = '.' := h.imp_right And.left
  simpa [heq, startsHex, hc] using hs.hexMark x hx

theorem startsHex_of_not_isHex {s : Spelling} (hs : s.WellFormed) (hx : s.isHex = false)
    {rest : List Char} (hrest : Ends rest) : startsHex (s.body ++ rest) = false := by
  have hread := read_body hs (endsBefore_of_ends s hrest)
  rw [isDigit_of_not_isHex hx, isMark_of_not_isHex hx] at hread
  apply Bool.eq_false_iff.mpr
  intro hstart
  unfold startsHex at hstart
  split at hstart
  . next x _ _ hcs =>
    simp only [Bool.and_eq_true, Bool.or_eq_true, beq_iff_eq] at hstart
    rw [hcs] at hread
    rcases hstart.1 with rfl | rfl
    . have := (Prod.mk.inj hread).2
      rw [← this] at hrest
      exact absurd (hrest 'x' rfl) (by decide)
    . have := (Prod.mk.inj hread).2
      rw [← this] at hrest
      exact absurd (hrest 'X' rfl) (by decide)
  . cases hstart

theorem scanNumeral_of_isHex {s : Spelling} (hs : s.WellFormed) (hx : s.isHex) {rest : List Char}
    (hrest : s.EndsBefore rest)
    : scanNumeral (s.chars ++ rest) = s.numeral.hexToken.map (·, rest) := by
  have hread := read_body hs hrest
  rw [isDigit_of_isHex hx, isMark_of_isHex hx] at hread
  obtain ⟨x, hmark⟩ := Option.isSome_iff_exists.mp hx
  have hchars : s.chars ++ rest = '0' :: x :: (s.body ++ rest) := by simp [chars, hmark]
  unfold scanNumeral
  rw [hchars, if_pos (startsHex_of_isHex hs hmark rest)]
  simp only [List.drop_succ_cons, List.drop_zero]
  rw [hread]

theorem scanNumeral_chars {s : Spelling} (hs : s.WellFormed) (hr : s.InRange) {rest : List Char}
    (hrest : Ends rest) : scanNumeral (s.chars ++ rest) = .ok (s.token, rest) := by
  have hends := endsBefore_of_ends s hrest
  cases hhex : s.isHex with
  | true =>
    rw [scanNumeral_of_isHex hs hhex hends, hexToken_numeral hs hr hhex]
    rfl
  | false =>
    have hread := read_body hs hends
    rw [isDigit_of_not_isHex hhex, isMark_of_not_isHex hhex] at hread
    have hmark : s.hexMark = none := by simpa [isHex] using hhex
    have hchars : s.chars = s.body := by simp [chars, hmark]
    unfold scanNumeral
    rw [hchars, startsHex_of_not_isHex hs hhex hrest]
    simp only [Bool.false_eq_true, if_false]
    rw [hread]
    dsimp only
    rw [decimalToken_numeral hs hr hhex]
    rfl

end Spelling

namespace Numeral

theorem readDigits_eq {isDigit : Char → Bool} {cs whole rest : List Char}
    {fraction : Option (List Char)} (h : readDigits isDigit cs = (whole, fraction, rest))
    : cs = whole ++ ((fraction.map ('.' :: ·)).getD [] ++ rest) ∧
      ∀ c ∈ whole ++ fraction.getD [], isDigit c := by
  have hcs := List.takeWhile_append_dropWhile (p := isDigit) (l := cs)
  unfold readDigits at h
  split at h
  . next rest' heq =>
    simp only [Prod.mk.injEq] at h
    obtain ⟨rfl, rfl, rfl⟩ := h
    constructor
    . rw [heq] at hcs
      simp [hcs]
    . intro c hc
      rcases List.mem_append.mp hc with hc | hc
      . exact List.all_eq_true.mp List.all_takeWhile c hc
      . exact List.all_eq_true.mp List.all_takeWhile c hc
  . simp only [Prod.mk.injEq] at h
    obtain ⟨rfl, rfl, rfl⟩ := h
    constructor
    . simp [hcs]
    . intro c hc
      rw [Option.getD_none, List.append_nil] at hc
      exact List.all_eq_true.mp List.all_takeWhile c hc

theorem digits_read_ne_nil {cs : List Char} (isMark : Char → Bool) (h : startsNumeral cs)
    : (read Char.isDigit isMark cs).1.digits ≠ [] := by
  have hdigits : (read Char.isDigit isMark cs).1.digits
      = (readDigits Char.isDigit cs).1 ++ (readDigits Char.isDigit cs).2.1.getD [] := rfl
  rw [hdigits]
  unfold startsNumeral at h
  split at h
  . next c rest =>
    have : readDigits Char.isDigit ('.' :: c :: rest)
        = ([], some ((c :: rest).takeWhile Char.isDigit), (c :: rest).dropWhile Char.isDigit) := rfl
    rw [this]
    simp [h]
  . next c rest _ =>
    unfold readDigits
    split <;> simp [h]
  . cases h

theorem readSign_eq (cs : List Char)
    : ∃ sign : Option Char, cs = sign.toList ++ (readSign cs).2 ∧ (∀ c ∈ sign, c = '+' ∨ c = '-') ∧
      (readSign cs).1 = (sign == some '-') := by
  unfold readSign
  split
  . exact ⟨some '+', rfl, by simp, rfl⟩
  . exact ⟨some '-', rfl, by simp, rfl⟩
  . exact ⟨none, rfl, by simp, rfl⟩

theorem readExponent_eq {isMark : Char → Bool} {cs rest : List Char} {negative : Bool}
    {exponent : Option (List Char)} (h : readExponent isMark cs = (negative, exponent, rest))
    : ∃ x : Option Exponent, cs = (x.map Exponent.chars).getD [] ++ rest ∧
      exponent = x.map Exponent.digits ∧ negative = x.any (·.sign == some '-') ∧
      ∀ y ∈ x, isMark y.mark ∧ (∀ c ∈ y.sign, c = '+' ∨ c = '-') ∧ ∀ c ∈ y.digits, c.isDigit := by
  unfold readExponent at h
  split at h
  . simp only [Prod.mk.injEq] at h
    obtain ⟨rfl, rfl, rfl⟩ := h
    exact ⟨none, rfl, rfl, rfl, by simp⟩
  . next m cs =>
    split at h
    . next hm =>
      simp only [Prod.mk.injEq] at h
      obtain ⟨rfl, rfl, rfl⟩ := h
      obtain ⟨sign, hcs, hsign, hneg⟩ := readSign_eq cs
      refine ⟨some ⟨m, sign, (readSign cs).2.takeWhile Char.isDigit⟩, ?_, rfl, hneg, ?_⟩
      . simp only [Option.map_some, Option.getD_some, Exponent.chars, List.cons_append,
          List.append_assoc, List.takeWhile_append_dropWhile]
        rw [← hcs]
      . intro y hy
        obtain rfl := Option.mem_some.mp hy
        exact ⟨hm, hsign, List.all_eq_true.mp List.all_takeWhile⟩
    . simp only [Prod.mk.injEq] at h
      obtain ⟨rfl, rfl, rfl⟩ := h
      exact ⟨none, rfl, rfl, rfl, by simp⟩

end Numeral

namespace Spelling

theorem exists_of_read {isDigit isMark : Char → Bool} {cs rest : List Char} {n : Numeral}
    (hexMark : Option Char) (h : Numeral.read isDigit isMark cs = (n, rest))
    : ∃ s : Spelling, s.hexMark = hexMark ∧ cs = s.body ++ rest ∧ s.numeral = n ∧
      (∀ c ∈ s.digits, isDigit c) ∧
      ∀ x ∈ s.exponent, isMark x.mark ∧ (∀ c ∈ x.sign, c = '+' ∨ c = '-') ∧
        ∀ c ∈ x.digits, c.isDigit := by
  unfold Numeral.read at h
  obtain ⟨⟨whole, fraction, rest₁⟩, h₁⟩ : ∃ r, Numeral.readDigits isDigit cs = r := ⟨_, rfl⟩
  obtain ⟨⟨negative, exponent, rest₂⟩, h₂⟩ : ∃ r, Numeral.readExponent isMark rest₁ = r := ⟨_, rfl⟩
  rw [h₁] at h
  dsimp only at h
  rw [h₂] at h
  simp only [Prod.mk.injEq] at h
  obtain ⟨rfl, rfl⟩ := h
  obtain ⟨hcs, hdigits⟩ := Numeral.readDigits_eq h₁
  obtain ⟨x, hrest, hexp, hneg, hx⟩ := Numeral.readExponent_eq h₂
  refine ⟨⟨hexMark, whole, fraction, x⟩, rfl, ?_, ?_, hdigits, hx⟩
  . rw [hcs, hrest]
    simp [body]
  . simp [numeral, hexp, hneg]

theorem inRange_of_decimalToken {s : Spelling} {t : Token} (hx : s.isHex = false)
    (h : s.numeral.decimalToken = .ok t) : s.InRange ∧ ∀ x ∈ s.exponent, x.digits ≠ [] := by
  cases he : s.exponent with
  | none => simp [InRange, he]
  | some x =>
    have hm : s.numeral.exponent = some x.digits := by simp [numeral, he]
    unfold Numeral.decimalToken at h
    rw [hm] at h
    cases hds : x.digits with
    | nil =>
      rw [hds] at h
      cases h
    | cons d ds =>
      rw [hds] at h
      dsimp only at h
      split at h
      . cases h
      . next hle =>
        have hle' : x.magnitude ≤ maxExponent := by
          rw [Exponent.magnitude, hds]
          exact Nat.le_of_not_lt hle
        constructor
        . intro y hy
          rw [he, Option.mem_some] at hy
          subst hy
          simpa [hx] using hle'
        . intro y hy
          rw [Option.mem_some] at hy
          subst hy
          simp [hds]

theorem exponent_ne_nil_of_hexToken {s : Spelling} {t : Token} (h : s.numeral.hexToken = .ok t)
    : ∀ x ∈ s.exponent, x.digits ≠ [] := by
  intro x hx hds
  have hm : s.numeral.exponent = some [] := by simp [numeral, Option.mem_def.mp hx, hds]
  rw [Numeral.hexToken_eq (Numeral.digits_ne_nil_of_hexToken h), hm] at h
  cases h

theorem isSome_exponent_of_hexToken {s : Spelling} {t : Token} (h : s.numeral.hexToken = .ok t)
    (hfraction : s.fraction.isSome) : s.exponent.isSome := by
  cases he : s.exponent with
  | some x => rfl
  | none =>
    have hm : s.numeral.exponent = none := by simp [numeral, he]
    have hf : s.numeral.fraction.isSome := hfraction
    rw [Numeral.hexToken_eq (Numeral.digits_ne_nil_of_hexToken h), hm] at h
    dsimp only at h
    rw [if_pos hf] at h
    cases h

theorem inRange_of_hexToken {s : Spelling} {t : Token} (hx : s.isHex)
    (h : s.numeral.hexToken = .ok t) : s.InRange := by
  intro x he
  have hdigits := exponent_ne_nil_of_hexToken h x he
  rw [hexToken_float hx (Numeral.digits_ne_nil_of_hexToken h) he hdigits] at h
  rw [if_pos hx]
  split at h
  . cases h
  . next hmagnitude =>
    split at h
    . cases h
    . next hshift =>
      refine ⟨Nat.lt_of_not_le hmagnitude, Int.le_of_not_gt hshift, ?_⟩
      cases hscale : Numeral.scaleByPowerOfTwo s.mantissa s.shift with
      | error e =>
        rw [hscale] at h
        cases h
      | ok d => exact le_maxShift_of_scaleByPowerOfTwo hscale

end Spelling

theorem exists_of_startsHex {cs : List Char} (h : startsHex cs)
    : ∃ x tail, cs = '0' :: x :: tail ∧ (x = 'x' ∨ x = 'X') := by
  unfold startsHex at h
  split at h
  . simp only [Bool.and_eq_true, Bool.or_eq_true, beq_iff_eq] at h
    exact ⟨_, _, rfl, h.1⟩
  . cases h

theorem Literal.exists_of_hex {cs rest : List Char} {t : Token} (hx : startsHex cs)
    (h : scanNumeral cs = .ok (t, rest)) : ∃ l : Literal, cs = l.chars ++ rest ∧ t = l.token := by
  obtain ⟨x, tail, rfl, hmark⟩ := exists_of_startsHex hx
  unfold scanNumeral at h
  rw [if_pos hx, List.drop_succ_cons, List.drop_succ_cons, List.drop_zero] at h
  obtain ⟨⟨n, rest'⟩, hread⟩
      : ∃ r, Numeral.read isHexDigit (fun c => c == 'p' || c == 'P') tail = r := ⟨_, rfl⟩
  rw [hread] at h
  cases ht : n.hexToken with
  | error e =>
    simp only [ht] at h
    cases h
  | ok t' =>
    simp only [ht] at h
    cases h
    obtain ⟨s, hs, hbody, rfl, hdigits, hexp⟩ := Spelling.exists_of_read (some x) hread
    have hhex : s.isHex := by simp [Spelling.isHex, hs]
    have hrange := Spelling.inRange_of_hexToken hhex ht
    have hwell : s.WellFormed :=
      { hexMark := by simpa [hs] using hmark
        digits := by rwa [Spelling.isDigit_of_isHex hhex]
        digits_ne_nil := Numeral.digits_ne_nil_of_hexToken ht
        mark := fun y hy => by
          rw [Spelling.isMark_of_isHex hhex]
          exact (hexp y hy).1
        sign := fun y hy => (hexp y hy).2.1
        exponent := fun y hy => (hexp y hy).2.2
        exponent_ne_nil := Spelling.exponent_ne_nil_of_hexToken ht
        fraction := fun _ => Spelling.isSome_exponent_of_hexToken ht }
    refine ⟨⟨s, hwell, hrange⟩, ?_, ?_⟩
    . simp [Spelling.chars, hs, hbody]
    . rw [Spelling.hexToken_numeral hwell hrange hhex] at ht
      cases ht
      rfl

theorem Literal.exists_of_decimal {cs rest : List Char} {t : Token} (hstart : startsNumeral cs)
    (hx : startsHex cs = false) (h : scanNumeral cs = .ok (t, rest))
    : ∃ l : Literal, cs = l.chars ++ rest ∧ t = l.token := by
  unfold scanNumeral at h
  simp only [hx, Bool.false_eq_true, if_false] at h
  obtain ⟨⟨n, rest'⟩, hread⟩
      : ∃ r, Numeral.read Char.isDigit (fun c => c == 'e' || c == 'E') cs = r := ⟨_, rfl⟩
  rw [hread] at h
  cases ht : n.decimalToken with
  | error e =>
    simp only [ht] at h
    cases h
  | ok t' =>
    simp only [ht] at h
    cases h
    obtain ⟨s, hs, hbody, rfl, hdigits, hexp⟩ := Spelling.exists_of_read none hread
    have hhex : s.isHex = false := by simp [Spelling.isHex, hs]
    obtain ⟨hrange, hene⟩ := Spelling.inRange_of_decimalToken hhex ht
    -- What was read is a literal: its digits by the way they were read, its exponent by the token.
    have hwell : s.WellFormed :=
      { hexMark := by simp [hs]
        digits := by rwa [Spelling.isDigit_of_not_isHex hhex]
        digits_ne_nil := by
          have hne := Numeral.digits_read_ne_nil (fun c => c == 'e' || c == 'E') hstart
          rwa [hread] at hne
        mark := fun y hy => by
          rw [Spelling.isMark_of_not_isHex hhex]
          exact (hexp y hy).1
        sign := fun y hy => (hexp y hy).2.1
        exponent := fun y hy => (hexp y hy).2.2
        exponent_ne_nil := hene
        fraction := by simp [hhex] }
    refine ⟨⟨s, hwell, hrange⟩, ?_, ?_⟩
    . simp [Spelling.chars, hs, hbody]
    . rw [Spelling.decimalToken_numeral hwell hrange hhex] at ht
      cases ht
      rfl

theorem Literal.exists_of_scanNumeral {cs rest : List Char} {t : Token} (hstart : startsNumeral cs)
    (h : scanNumeral cs = .ok (t, rest)) : ∃ l : Literal, cs = l.chars ++ rest ∧ t = l.token := by
  cases hx : startsHex cs with
  | true => exact exists_of_hex hx h
  | false => exact exists_of_decimal hstart hx h

end Runbook.Calc
