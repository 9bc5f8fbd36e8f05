import Runbook.Proofs.Calc.Padding
import Runbook.Proofs.Text.Casing

/-!
This module contains the proof that an expression has the same value in small letters.
-/

namespace Runbook.Calc

open Number Text

namespace Numeral

def toLower (n : Numeral) : Numeral where
  whole := n.whole.map Char.toLower
  fraction := n.fraction.map (List.map Char.toLower)
  negative := n.negative
  exponent := n.exponent.map (List.map Char.toLower)

theorem digits_toLower (n : Numeral) : n.toLower.digits = n.digits.map Char.toLower := by
  unfold digits toLower
  cases n.fraction <;> simp

theorem places_toLower (n : Numeral) : n.toLower.places = n.places := by
  unfold places toLower
  cases n.fraction <;> simp

theorem decimalToken_toLower {n : Numeral} {t : Token} (h : n.decimalToken = .ok t)
    : n.toLower.decimalToken = .ok t := by
  have hdigits : digitsValue 10 n.toLower.digits = digitsValue 10 n.digits := by
    rw [digits_toLower, digitsValue_map_toLower]
  unfold decimalToken at h ⊢
  rw [hdigits, places_toLower]
  cases hexponent : n.exponent with
  | none =>
    have hlower : n.toLower.exponent = none := by simp [toLower, hexponent]
    rw [hexponent] at h
    rw [hlower]
    simpa [toLower] using h
  | some ds =>
    have hlower : n.toLower.exponent = some (ds.map Char.toLower) := by simp [toLower, hexponent]
    have hvalue := digitsValue_map_toLower 10 ds
    rw [hexponent] at h
    rw [hlower]
    cases ds with
    | nil => cases h
    | cons d ds =>
      rw [List.map_cons] at hvalue ⊢
      dsimp only at h ⊢
      rw [hvalue]
      split at h
      . cases h
      . next hle =>
        rw [if_neg hle]
        exact h

theorem hexToken_toLower {n : Numeral} {t : Token} (h : n.hexToken = .ok t)
    : n.toLower.hexToken = .ok t := by
  have hdigits : digitsValue 16 n.toLower.digits = digitsValue 16 n.digits := by
    rw [digits_toLower, digitsValue_map_toLower]
  have hempty : n.toLower.digits.isEmpty = n.digits.isEmpty := by
    rw [digits_toLower, List.isEmpty_map]
  unfold hexToken at h ⊢
  rw [hdigits, hempty, places_toLower]
  cases hexponent : n.exponent with
  | none =>
    have hlower : n.toLower.exponent = none := by simp [toLower, hexponent]
    rw [hexponent] at h
    rw [hlower]
    simpa [toLower] using h
  | some ds =>
    have hlower : n.toLower.exponent = some (ds.map Char.toLower) := by simp [toLower, hexponent]
    have hvalue := digitsValue_map_toLower 10 ds
    rw [hexponent] at h
    rw [hlower]
    cases ds with
    | nil => exact h
    | cons d ds =>
      rw [List.map_cons] at hvalue ⊢
      dsimp only at h ⊢
      rw [hvalue]
      -- The text of the exponent is only told where it is too large.
      by_cases hlarge : 2 ^ 63 ≤ digitsValue 10 (d :: ds)
      . rw [if_pos hlarge] at h
        split at h <;> cases h
      . rw [if_neg hlarge] at h ⊢
        exact h

section

variable {isDigit isMark : Char → Bool} (hdigit : ∀ c, isDigit c.toLower = isDigit c)
  (hmark : ∀ c, isMark c.toLower = isMark c)

include hdigit in
theorem readDigits_toLower (cs : List Char)
    : readDigits isDigit (cs.map Char.toLower)
        =
      ((readDigits isDigit cs).1.map Char.toLower,
        (readDigits isDigit cs).2.1.map (List.map Char.toLower),
        (readDigits isDigit cs).2.2.map Char.toLower) := by
  have hcomp : isDigit ∘ Char.toLower = isDigit := funext hdigit
  unfold readDigits
  rw [List.takeWhile_map, List.dropWhile_map, hcomp]
  cases cs.dropWhile isDigit with
  | nil => rfl
  | cons c rest =>
    by_cases hc : c = '.'
    . subst hc
      have hdot : '.'.toLower = '.' := by decide
      simp only [List.map_cons, hdot, List.takeWhile_map, List.dropWhile_map, hcomp,
        Option.map_some]
    . have hlower : c.toLower ≠ '.' := mt (toLower_eq_iff (by decide)).mp hc
      simp [hc, hlower]

theorem readSign_toLower (cs : List Char)
    : readSign (cs.map Char.toLower) = ((readSign cs).1, (readSign cs).2.map Char.toLower) := by
  cases cs with
  | nil => rfl
  | cons c cs =>
    by_cases hplus : c = '+'
    . subst hplus
      rfl
    . by_cases hminus : c = '-'
      . subst hminus
        rfl
      . have hplus' : c.toLower ≠ '+' := mt (toLower_eq_iff (by decide)).mp hplus
        have hminus' : c.toLower ≠ '-' := mt (toLower_eq_iff (by decide)).mp hminus
        simp [readSign, hplus, hminus, hplus', hminus']

include hmark in
theorem readExponent_toLower (cs : List Char)
    : readExponent isMark (cs.map Char.toLower)
        =
      ((readExponent isMark cs).1, (readExponent isMark cs).2.1.map (List.map Char.toLower),
        (readExponent isMark cs).2.2.map Char.toLower) := by
  have hcomp : Char.isDigit ∘ Char.toLower = Char.isDigit := funext isDigit_toLower
  cases cs with
  | nil => rfl
  | cons c cs =>
    rw [List.map_cons, readExponent, readExponent, hmark]
    split
    . rw [readSign_toLower]
      dsimp only
      rw [List.takeWhile_map, List.dropWhile_map, hcomp]
      rfl
    . rfl

include hdigit hmark in
theorem read_toLower (cs : List Char)
    : read isDigit isMark (cs.map Char.toLower)
        =
      ((read isDigit isMark cs).1.toLower, (read isDigit isMark cs).2.map Char.toLower) := by
  unfold read
  rw [readDigits_toLower hdigit]
  dsimp only
  rw [readExponent_toLower hmark]
  rfl

end

end Numeral

theorem startsNumeral_toLower (cs : List Char)
    : startsNumeral (cs.map Char.toLower) = startsNumeral cs := by
  rcases cs with _ | ⟨c, _ | ⟨d, cs⟩⟩
  . rfl
  . simp [startsNumeral, isDigit_toLower]
  . by_cases hc : c = '.'
    . subst hc
      exact isDigit_toLower d
    . have hlower : c.toLower ≠ '.' := mt (toLower_eq_iff (by decide)).mp hc
      simp [startsNumeral, hc, hlower, isDigit_toLower]

theorem startsHex_toLower (cs : List Char) : startsHex (cs.map Char.toLower) = startsHex cs := by
  have hmark (x : Char) : (x.toLower == 'x' || x.toLower == 'X') = (x == 'x' || x == 'X') :=
    apply_toLower (f := fun x => x == 'x' || x == 'X') (by decide) x
  have hdot (c : Char) : (c.toLower == '.') = (c == '.') :=
    apply_toLower (f := (· == '.')) (by decide) c
  rcases cs with _ | ⟨c, _ | ⟨x, _ | ⟨d, cs⟩⟩⟩
  . rfl
  . simp [startsHex]
  . simp [startsHex]
  . by_cases hc : c = '0'
    . subst hc
      show (_ && (_ || _)) = (_ && (_ || _))
      rw [hmark, hdot, isHexDigit_toLower]
    . have hlower : c.toLower ≠ '0' := mt (toLower_eq_iff (by decide)).mp hc
      simp [startsHex, hc, hlower]

theorem scanNumeral_toLower {cs rest : List Char} {t : Token} (h : scanNumeral cs = .ok (t, rest))
    : scanNumeral (cs.map Char.toLower) = .ok (t, rest.map Char.toLower) := by
  unfold scanNumeral at h ⊢
  rw [startsHex_toLower]
  split at h
  . next hhex =>
    have hmark : ∀ c : Char, (c.toLower == 'p' || c.toLower == 'P') = (c == 'p' || c == 'P') :=
      apply_toLower (f := fun c => c == 'p' || c == 'P') (by decide)
    have hread := @Numeral.read_toLower isHexDigit (fun c => c == 'p' || c == 'P')
      isHexDigit_toLower hmark (cs.drop 2)
    generalize Numeral.read isHexDigit (fun c => c == 'p' || c == 'P') (cs.drop 2) = r at h hread
    obtain ⟨t', ht, heq⟩ := map_eq_ok.mp h
    cases heq
    rw [if_pos hhex, ← List.map_drop, hread]
    dsimp only
    rw [Numeral.hexToken_toLower ht]
    rfl
  . next hhex =>
    have hmark : ∀ c : Char, (c.toLower == 'e' || c.toLower == 'E') = (c == 'e' || c == 'E') :=
      apply_toLower (f := fun c => c == 'e' || c == 'E') (by decide)
    have hread := @Numeral.read_toLower Char.isDigit (fun c => c == 'e' || c == 'E')
      isDigit_toLower hmark cs
    generalize Numeral.read Char.isDigit (fun c => c == 'e' || c == 'E') cs = r at h hread
    obtain ⟨t', ht, heq⟩ := map_eq_ok.mp h
    cases heq
    rw [if_neg hhex, hread]
    dsimp only
    rw [Numeral.decimalToken_toLower ht]
    rfl

theorem symbolRead_toLower (cs rest : List Char) (t : Token)
    : Symbol.read cs = some (t, rest) →
        Symbol.read (cs.map Char.toLower) = some (t, rest.map Char.toLower) := by
  -- A character that does not belong to a symbol does not in small letters either.
  have hne {cs : List Char} (d : Char) (hd : d.isAlpha = false)
      (h : ∀ rest, cs = d :: rest → False) (rest : List Char)
      : cs.map Char.toLower = d :: rest → False := by
    intro heq
    obtain ⟨c, cs', rfl, hc, _⟩ := List.map_eq_cons_iff.mp heq
    rw [toLower_eq_iff hd] at hc
    exact h cs' (by rw [hc])
  fun_cases Symbol.read cs
  all_goals
    intro h
    cases h
    try rfl
  all_goals
    rw [List.map_cons, (toLower_eq_iff ?_).mpr rfl, Symbol.read]
    all_goals
      first
      | decide
      | exact hne _ (by decide) (by assumption)

theorem Takes.toLower {cs rest : List Char} {t : Token} (h : Takes cs t rest)
    : Takes (cs.map Char.toLower) t (rest.map Char.toLower) := by
  cases h with
  | numeral hs h =>
    exact .numeral (by rw [startsNumeral_toLower, hs]) (scanNumeral_toLower h)
  | @word c cs hc b hword =>
    have hcomp : Char.isAlphanum ∘ Char.toLower = Char.isAlphanum := funext isAlphanum_toLower
    -- Both words are written in small letters.
    have hlower : (c :: cs.takeWhile Char.isAlphanum).map Char.toLower = (Lexeme.bool b).chars := by
      rw [hword]
      cases b <;> decide
    rw [List.map_cons, ← hcomp, ← List.takeWhile_map] at hlower
    rw [← hcomp, ← List.dropWhile_map]
    exact .word (by rw [isAlpha_toLower, hc]) b hlower
  | symbol h => exact .symbol (symbolRead_toLower _ _ _ h)

theorem scan_toLower (size size' : Nat) {cs : List Char} {ts : List Token}
    (h : scan size cs = .ok ts) : scan size' (cs.map Char.toLower) = .ok ts := by
  rw [scan_eq_ok] at h ⊢
  induction h with
  | nil => exact .nil
  | blank hc _ ih => exact .blank (by rw [isBlank_toLower, hc]) ih
  | token ht _ ih => exact .token ht.toLower ih

theorem tokens_toLower {cs : List Char} {ts : List Token}
    (h : tokens (String.ofList cs) = .ok ts)
    : tokens (String.ofList (cs.map Char.toLower)) = .ok ts := by
  unfold tokens at h ⊢
  rw [String.toList_ofList] at h ⊢
  exact scan_toLower _ _ h

theorem evaluate_toLower {cs : List Char} {expected : List Kind} {v : Value}
    (h : evaluate (String.ofList cs) expected = .ok v)
    : evaluate (String.ofList (cs.map Char.toLower)) expected = .ok v := by
  rw [evaluate_eq_ok] at h ⊢
  obtain ⟨ts, hne, htokens, hvalue, hkind⟩ := h
  exact ⟨ts, hne, tokens_toLower htokens, hvalue, hkind⟩

end Runbook.Calc
