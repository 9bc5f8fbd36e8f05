import Runbook.Proofs.Calc.Lexing
import Runbook.Proofs.Calc.Reading
import Runbook.Proofs.Text.Blank

/-!
This module contains the proof that the blanks around an expression are no part of it: with them and
without them it has the same value.
-/

namespace Runbook.Calc

open Number Text

theorem ne_of_isBlank {c : Char} (h : isBlank c)
    : c ≠ '.' ∧ c ≠ '+' ∧ c ≠ '-' ∧ c ≠ 'x' ∧ c ≠ 'X' ∧ c ≠ '&' ∧ c ≠ '^' ∧ c ≠ '|' ∧ c ≠ '<' ∧
      c ≠ '>' ∧ c ≠ '=' := by
  refine ⟨?_, ?_, ?_, ?_, ?_, ?_, ?_, ?_, ?_, ?_, ?_⟩
  all_goals
    rintro rfl
    exact absurd h (by decide)

theorem isHexDigit_of_isBlank {c : Char} (h : isBlank c) : isHexDigit c = false := by
  by_contra hc
  have halnum := isAlphanum_of_isHexDigit (Bool.not_eq_false _ ▸ hc)
  rw [not_isAlphanum_of_isBlank h] at halnum
  cases halnum

theorem isDigit_of_isBlank {c : Char} (h : isBlank c) : c.isDigit = false := by
  have hhex := isHexDigit_of_isBlank h
  simp only [isHexDigit, Bool.or_eq_false_iff] at hhex
  exact hhex.1.1

section Back

variable {back : List Char} (hback : ∀ c ∈ back, isBlank c)

include hback

theorem readDigits_append_blanks {isDigit : Char → Bool} (hdigit : ∀ c ∈ back, isDigit c = false)
    (cs : List Char)
    : Numeral.readDigits isDigit (cs ++ back)
        =
      ((Numeral.readDigits isDigit cs).1, (Numeral.readDigits isDigit cs).2.1,
        (Numeral.readDigits isDigit cs).2.2 ++ back) := by
  unfold Numeral.readDigits
  rw [takeWhile_append_of_none hdigit, dropWhile_append_of_none hdigit]
  cases hrest : cs.dropWhile isDigit with
  | nil =>
    cases back with
    | nil => rfl
    | cons c back =>
      have hc := ne_of_isBlank (hback c (List.mem_cons_self ..))
      simp [hc]
  | cons c rest =>
    by_cases hc : c = '.'
    . subst hc
      simp [takeWhile_append_of_none hdigit, dropWhile_append_of_none hdigit]
    . simp [hc]

theorem readSign_append_blanks (cs : List Char)
    : Numeral.readSign (cs ++ back)
        =
      ((Numeral.readSign cs).1, (Numeral.readSign cs).2 ++ back) := by
  cases cs with
  | nil =>
    cases back with
    | nil => rfl
    | cons c back =>
      have hc := ne_of_isBlank (hback c (List.mem_cons_self ..))
      simp [Numeral.readSign, hc]
  | cons c cs =>
    by_cases hplus : c = '+'
    . subst hplus
      rfl
    . by_cases hminus : c = '-'
      . subst hminus
        rfl
      . simp [Numeral.readSign, hplus, hminus]

theorem readExponent_append_blanks {isMark : Char → Bool} (hmark : ∀ c ∈ back, isMark c = false)
    (cs : List Char)
    : Numeral.readExponent isMark (cs ++ back)
        =
      ((Numeral.readExponent isMark cs).1, (Numeral.readExponent isMark cs).2.1,
        (Numeral.readExponent isMark cs).2.2 ++ back) := by
  have hdigit : ∀ c ∈ back, c.isDigit = false := fun c hc => isDigit_of_isBlank (hback c hc)
  cases cs with
  | nil =>
    cases back with
    | nil => rfl
    | cons c back => simp [Numeral.readExponent, hmark c (List.mem_cons_self ..)]
  | cons c cs =>
    rw [List.cons_append, Numeral.readExponent, Numeral.readExponent]
    split
    . rw [readSign_append_blanks hback]
      dsimp only
      rw [takeWhile_append_of_none hdigit, dropWhile_append_of_none hdigit]
    . rfl

theorem read_append_blanks {isDigit isMark : Char → Bool} (hdigit : ∀ c ∈ back, isDigit c = false)
    (hmark : ∀ c ∈ back, isMark c = false) (cs : List Char)
    : Numeral.read isDigit isMark (cs ++ back)
        =
      ((Numeral.read isDigit isMark cs).1, (Numeral.read isDigit isMark cs).2 ++ back) := by
  unfold Numeral.read
  rw [readDigits_append_blanks hback hdigit]
  dsimp only
  rw [readExponent_append_blanks hback hmark]

theorem startsNumeral_append_blanks (cs : List Char)
    : startsNumeral (cs ++ back) = startsNumeral cs := by
  cases back with
  | nil => rw [List.append_nil]
  | cons b back =>
    have hb := ne_of_isBlank (hback b (List.mem_cons_self ..))
    have hdigit := isDigit_of_isBlank (hback b (List.mem_cons_self ..))
    rcases cs with _ | ⟨c, _ | ⟨d, cs⟩⟩
    . simp [startsNumeral, hb, hdigit]
    . by_cases hc : c = '.'
      . subst hc
        simp [startsNumeral, hdigit]
      . simp [startsNumeral, hc]
    . by_cases hc : c = '.'
      . subst hc
        simp [startsNumeral]
      . simp [startsNumeral, hc]

theorem startsHex_append_blanks (cs : List Char) : startsHex (cs ++ back) = startsHex cs := by
  cases back with
  | nil => rw [List.append_nil]
  | cons b back =>
    have hb := ne_of_isBlank (hback b (List.mem_cons_self ..))
    have hhex := isHexDigit_of_isBlank (hback b (List.mem_cons_self ..))
    rcases cs with _ | ⟨c, _ | ⟨x, _ | ⟨d, cs⟩⟩⟩
    . unfold startsHex
      split
      . next heq =>
        obtain ⟨rfl, _⟩ := List.cons.inj heq
        exact absurd (hback _ (List.mem_cons_self ..)) (by decide)
      . rfl
    . by_cases hc : c = '0'
      . subst hc
        cases back with
        | nil => rfl
        | cons b' back => simp [startsHex, hb]
      . simp [startsHex, hc]
    . by_cases hc : c = '0'
      . subst hc
        simp [startsHex, hb, hhex]
      . simp [startsHex, hc]
    . by_cases hc : c = '0'
      . subst hc
        rfl
      . simp [startsHex, hc]

theorem scanNumeral_append_blanks (cs : List Char)
    : scanNumeral (cs ++ back) = (scanNumeral cs).map fun (t, rest) => (t, rest ++ back) := by
  have hmark (m m' : Char) (h : isBlank m = false) (h' : isBlank m' = false)
      : ∀ c ∈ back, (c == m || c == m') = false := by
    intro c hc
    rw [Bool.or_eq_false_iff, beq_eq_false_iff_ne, beq_eq_false_iff_ne]
    constructor
    . rintro rfl
      rw [hback _ hc] at h
      cases h
    . rintro rfl
      rw [hback _ hc] at h'
      cases h'
  unfold scanNumeral
  rw [startsHex_append_blanks hback]
  split
  . next hhex =>
    obtain ⟨x, c, cs, rfl⟩ : ∃ x c cs', cs = '0' :: x :: c :: cs' := by
      unfold startsHex at hhex
      split at hhex
      . exact ⟨_, _, _, rfl⟩
      . cases hhex
    have hread := read_append_blanks hback (fun b hb => isHexDigit_of_isBlank (hback b hb))
      (hmark 'p' 'P' (by decide) (by decide)) (c :: cs)
    simp only [List.cons_append, List.drop_succ_cons, List.drop_zero] at hread ⊢
    rw [hread]
    dsimp only
    cases Numeral.hexToken _ <;> rfl
  . rw [read_append_blanks hback (fun b hb => isDigit_of_isBlank (hback b hb))
      (hmark 'e' 'E' (by decide) (by decide))]
    dsimp only
    cases Numeral.decimalToken _ <;> rfl

theorem symbolRead_append_blanks (c : Char) (cs : List Char)
    : Symbol.read (c :: (cs ++ back))
        =
      (Symbol.read (c :: cs)).map fun (t, rest) => (t, rest ++ back) := by
  -- The character behind the first one is as before or a blank.
  have hne (d : Char) (rest : List Char) (hd : isBlank d = false)
      (h : ∀ rest, cs = d :: rest → False) : cs ++ back = d :: rest → False := by
    intro heq
    cases cs with
    | nil =>
      rw [List.nil_append] at heq
      have := hback d (by rw [heq]; exact List.mem_cons_self ..)
      rw [hd] at this
      cases this
    | cons c' cs => exact h cs (by rw [(List.cons.inj heq).1])
  generalize hr : c :: cs = r
  fun_cases Symbol.read r
  all_goals
    cases hr
    try rfl
  case case24.refl =>
    rw [Symbol.read]
    . rfl
    all_goals
      intro rest heq
      obtain ⟨rfl, hbehind⟩ := List.cons.inj heq
      first
      | solve_by_elim
      | refine hne _ rest (by decide) ?_ hbehind
        rintro rest rfl
        solve_by_elim
  all_goals
    rw [Symbol.read]
    . rfl
    all_goals
      intro rest heq
      exact hne _ rest (by decide) (by assumption) heq

theorem scan_blanks (size : Nat) : scan size back = .ok [] := by
  induction back with
  | nil => exact scan_nil size
  | cons c back ih =>
    rw [List.forall_mem_cons] at hback
    rw [scan_blank size hback.1, ih hback.2]

theorem not_takes_blanks {t : Token} {rest : List Char} : ¬ Takes back t rest := by
  intro h
  cases h with
  | numeral hs _ =>
    cases back with
    | nil => cases hs
    | cons c cs => exact not_isBlank_of_startsNumeral hs (hback c (List.mem_cons_self ..))
  | word hc b _ =>
    have halnum := not_isAlphanum_of_isBlank (hback _ (List.mem_cons_self ..))
    simp [Char.isAlphanum, hc] at halnum
  | symbol h =>
    cases back with
    | nil => cases h
    | cons c cs =>
      have hblank := (head_of_symbol h).1
      rw [hback c (List.mem_cons_self ..)] at hblank
      cases hblank

theorem takes_append_blanks {cs left : List Char} {t : Token}
    : Takes (cs ++ back) t left ↔ ∃ rest, left = rest ++ back ∧ Takes cs t rest := by
  have halnum : ∀ b ∈ back, b.isAlphanum = false :=
    fun b hb => not_isAlphanum_of_isBlank (hback b hb)
  constructor
  . intro h
    cases cs with
    | nil => exact absurd h (not_takes_blanks hback)
    | cons c cs =>
      rw [List.cons_append] at h
      cases h with
      | numeral hs h =>
        rw [← List.cons_append, startsNumeral_append_blanks hback] at hs
        rw [← List.cons_append, scanNumeral_append_blanks hback] at h
        obtain ⟨⟨t, rest⟩, hread, heq⟩ := map_eq_ok.mp h
        cases heq
        exact ⟨rest, rfl, .numeral hs hread⟩
      | word hc b hword =>
        rw [takeWhile_append_of_none halnum] at hword
        exact ⟨_, dropWhile_append_of_none halnum _, .word hc b hword⟩
      | symbol h =>
        rw [symbolRead_append_blanks hback] at h
        obtain ⟨⟨t, rest⟩, hread, heq⟩ := Option.map_eq_some_iff.mp h
        cases heq
        exact ⟨rest, rfl, .symbol hread⟩
  . rintro ⟨rest, rfl, h⟩
    cases h with
    | numeral hs h =>
      refine .numeral ?_ ?_
      . rw [startsNumeral_append_blanks hback, hs]
      . rw [scanNumeral_append_blanks hback, h]
        rfl
    | @word c cs hc b hword =>
      rw [List.cons_append, ← dropWhile_append_of_none halnum]
      exact .word hc b (by rw [takeWhile_append_of_none halnum, hword])
    | symbol h =>
      cases cs with
      | nil => cases h
      | cons c cs =>
        refine .symbol ?_
        rw [List.cons_append, symbolRead_append_blanks hback, h]
        rfl

theorem scan_append_blanks (size size' : Nat) (cs : List Char) (ts : List Token)
    : scan size (cs ++ back) = .ok ts ↔ scan size' cs = .ok ts := by
  constructor
  . intro h
    rw [scan_eq_ok] at h
    generalize hcs : cs ++ back = cs' at h
    induction h generalizing cs with
    | nil =>
      rw [List.append_eq_nil_iff] at hcs
      rw [hcs.1, scan_nil]
    | @blank c cs' ts hc h ih =>
      cases cs with
      | nil =>
        -- Nothing but the blanks is left, and they hold no tokens.
        have hts : scan size (c :: cs') = .ok ts := scan_eq_ok.mpr (.blank hc h)
        rw [← hcs, List.nil_append, scan_blanks hback] at hts
        rw [scan_nil, hts]
      | cons c' cs =>
        obtain ⟨rfl, htail⟩ := List.cons.inj hcs
        rw [scan_blank size' hc, ih cs htail]
    | token ht _ ih =>
      subst hcs
      obtain ⟨rest, rfl, hfront⟩ := (takes_append_blanks hback).mp ht
      rw [hfront.scan size', ih rest rfl]
      rfl
  . intro h
    rw [scan_eq_ok] at h
    induction h with
    | nil => exact scan_blanks hback size
    | blank hc _ ih => rw [List.cons_append, scan_blank size hc, ih]
    | token ht _ ih =>
      rw [((takes_append_blanks hback).mpr ⟨_, rfl, ht⟩).scan size, ih]
      rfl

end Back

theorem scan_blanks_append {front : List Char} (hfront : ∀ c ∈ front, isBlank c) (size : Nat)
    (cs : List Char) : scan size (front ++ cs) = scan size cs := by
  induction front with
  | nil => rfl
  | cons c front ih =>
    rw [List.forall_mem_cons] at hfront
    rw [List.cons_append, scan_blank size hfront.1, ih hfront.2]

theorem tokens_trim (cs : List Char) (ts : List Token)
    : tokens (String.ofList (trimChars cs)) = .ok ts ↔ tokens (String.ofList cs) = .ok ts := by
  obtain ⟨front, back, hcs, hfront, hback⟩ := exists_trimChars cs
  unfold tokens
  rw [String.toList_ofList, String.toList_ofList]
  conv_rhs => rw [hcs, List.append_assoc, scan_blanks_append hfront]
  exact (scan_append_blanks hback _ _ _ ts).symm

theorem evaluate_eq_ok {text : String} {expected : List Kind} {v : Value}
    : evaluate text expected = .ok v ↔
      ∃ ts, ts ≠ [] ∧ tokens text = .ok ts ∧ valueOf ts = .ok v ∧
        (expected = [] ∨ v.kind ∈ expected) := by
  unfold evaluate
  dsimp only
  cases tokens text with
  | error c => simp [throw, throwThe, MonadExceptOf.throw]
  | ok ts =>
    cases ts with
    | nil => simp [throw, throwThe, MonadExceptOf.throw]
    | cons t ts =>
      have hne : t :: ts ≠ [] := List.cons_ne_nil _ _
      cases hvalue : valueOf (t :: ts) with
      | error c => simp [hvalue, throw, throwThe, MonadExceptOf.throw]
      | ok w =>
        by_cases hkind : expected = [] ∨ w.kind ∈ expected
        . have hcheck : (expected.isEmpty || expected.contains w.kind) = true := by
            simpa using hkind
          simp only [hvalue, hcheck, if_true]
          constructor
          . intro h
            cases h
            exact ⟨_, hne, rfl, hvalue, hkind⟩
          . rintro ⟨_, _, htokens, hv, _⟩
            cases htokens
            rw [hvalue] at hv
            cases hv
            rfl
        . have hcheck : (expected.isEmpty || expected.contains w.kind) = false := by
            simpa using hkind
          simp only [hvalue, hcheck, Bool.false_eq_true, if_false]
          constructor
          . intro h
            cases h
          . rintro ⟨_, _, htokens, hv, hfits⟩
            cases htokens
            rw [hvalue] at hv
            cases hv
            exact absurd hfits hkind

theorem evaluate_trim (cs : List Char) (expected : List Kind) (v : Value)
    : evaluate (String.ofList (trimChars cs)) expected = .ok v ↔
      evaluate (String.ofList cs) expected = .ok v := by
  simp only [evaluate_eq_ok, tokens_trim]

theorem evaluate_numeral {cs : List Char} {t : Token} {v w : Value} (hs : startsNumeral cs)
    (h : scanNumeral cs = .ok (t, [])) (hread : readOperand [t] = .ok (v, []))
    (hcollapse : v.collapse = .ok w) : evaluate (String.ofList cs) [] = .ok w := by
  have htokens : tokens (String.ofList cs) = .ok [t] := by
    unfold tokens
    rw [String.toList_ofList, scan_numeral _ hs h, scan_nil]
    rfl
  have hvalue : valueOf [t] = .ok w := (valueOf_operand hread).trans hcollapse
  exact evaluate_eq_ok.mpr ⟨[t], List.cons_ne_nil _ _, htokens, hvalue, .inl rfl⟩

theorem evaluateInt_eq_ok {text : String} {n : Int}
    : evaluateInt text = .ok n ↔ evaluate text [] = .ok (.int n) := by
  unfold evaluateInt
  rw [bind_eq_ok, evaluate_eq_ok]
  constructor
  . rintro ⟨v, hv, h⟩
    rw [evaluate_eq_ok] at hv
    obtain ⟨ts, hne, htokens, hvalue, _⟩ := hv
    split at h
    . cases h
      exact ⟨ts, hne, htokens, hvalue, .inl rfl⟩
    . cases h
  . rintro ⟨ts, hne, htokens, hvalue, _⟩
    exact ⟨.int n, evaluate_eq_ok.mpr ⟨ts, hne, htokens, hvalue, .inr (.head _)⟩, rfl⟩

end Runbook.Calc
