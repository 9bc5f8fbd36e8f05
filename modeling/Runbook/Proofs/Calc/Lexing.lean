import Runbook.Proofs.Calc.Tree
import Runbook.Proofs.Outcome

/-!
This module contains the texts that a sequence of tokens can be written as, and the proof that the
scanner takes such a text apart into these tokens and accepts no other text.
-/

namespace Runbook.Calc

open Text

/--
The text `cs` writes the tokens `ls` in order, with blanks anywhere between them.
-/
inductive Spelled : List Lexeme → List Char → Prop where
  | nil : Spelled [] []
  | blank {ls : List Lexeme} {cs : List Char} (c : Char) (hc : isBlank c) (h : Spelled ls cs)
      : Spelled ls (c :: cs)
  | lexeme {ls : List Lexeme} {cs : List Char} (l : Lexeme) (h : Spelled ls cs)
      : Spelled (l :: ls) (l.chars ++ cs)

/--
The text `cs` writes the tokens `ls` in order, with blanks between all of them.
-/
inductive Spaced : List Lexeme → List Char → Prop where
  | nil : Spaced [] []
  | blank {ls : List Lexeme} {cs : List Char} (c : Char) (hc : isBlank c) (h : Spaced ls cs)
      : Spaced ls (c :: cs)
  | lexeme {ls : List Lexeme} {cs : List Char} (l : Lexeme) (hends : Ends cs) (h : Spaced ls cs)
      : Spaced (l :: ls) (l.chars ++ cs)

theorem scan_nil (size : Nat) : scan size [] = .ok [] := by
  rw [scan]
  rfl

theorem scan_cons (size : Nat) (c : Char) (cs : List Char)
    : scan size (c :: cs) =
      if isBlank c then scan size cs
      else if startsNumeral (c :: cs) then
        match scanNumeral (c :: cs) with
        | .error e => .error e
        | .ok (t, rest) => (scan size rest).map (t :: ·)
      else if c.isAlpha then
        if c :: cs.takeWhile Char.isAlphanum = "true".toList then
          (scan size (cs.dropWhile Char.isAlphanum)).map (.bool true :: ·)
        else if c :: cs.takeWhile Char.isAlphanum = "false".toList then
          (scan size (cs.dropWhile Char.isAlphanum)).map (.bool false :: ·)
        else
          .error (.identifier (String.ofList (c :: cs.takeWhile Char.isAlphanum)))
      else
        match Symbol.read (c :: cs) with
        | some (t, rest) => (scan size rest).map (t :: ·)
        | none => .error (.character c (size - (cs.length + 1))) := by
  rw [scan]
  split
  . rfl
  . split
    . split
      . next hread => simp only [hread]; rfl
      . next hread => simp only [hread]
    . split
      . rfl
      . split
        . next hread => simp only [hread]
        . next hread => simp only [hread]; rfl

theorem scan_blank (size : Nat) {c : Char} (hc : isBlank c) (cs : List Char)
    : scan size (c :: cs) = scan size cs := by
  rw [scan_cons, if_pos hc]

theorem isDigit_of_startsNumeral {c : Char} {cs : List Char} (h : startsNumeral (c :: cs))
    : c.isDigit ∨ c = '.' := by
  unfold startsNumeral at h
  split at h
  . next heq => exact .inr (List.cons.inj heq).1
  . next heq =>
    rw [(List.cons.inj heq).1]
    exact .inl h
  . cases h

theorem not_isBlank_of_startsNumeral {c : Char} {cs : List Char} (h : startsNumeral (c :: cs))
    : ¬ isBlank c := by
  intro hb
  rcases isDigit_of_startsNumeral h with hc | rfl
  . have := not_isAlphanum_of_isBlank hb
    simp [isAlphanum_of_isHexDigit (isHexDigit_of_isDigit hc)] at this
  . exact absurd hb (by decide)

theorem scan_numeral (size : Nat) {cs rest : List Char} {t : Token} (hs : startsNumeral cs)
    (h : scanNumeral cs = .ok (t, rest)) : scan size cs = (scan size rest).map (t :: ·) := by
  cases cs with
  | nil => cases hs
  | cons c cs =>
    rw [scan_cons, if_neg (not_isBlank_of_startsNumeral hs), if_pos hs, h]

theorem not_isDigit_of_isAlpha {c : Char} (h : c.isAlpha) : c.isDigit = false := by
  simp only [isAlpha_eq, Char.isDigit, Bool.or_eq_true,
    Bool.and_eq_true, Bool.and_eq_false_imp, decide_eq_true_eq, decide_eq_false_iff_not,
    UInt32.le_iff_toNat_le, ge_iff_le, Char.reduceVal, UInt32.reduceToNat] at h ⊢
  omega

theorem scan_word (size : Nat) {c : Char} (hc : c.isAlpha) (cs : List Char) (b : Bool)
    (hword : c :: cs.takeWhile Char.isAlphanum = (Lexeme.bool b).chars)
    : scan size (c :: cs)
        =
      (scan size (cs.dropWhile Char.isAlphanum)).map (.bool b :: ·) := by
  have hblank : ¬ isBlank c := by
    intro hb
    have := not_isAlphanum_of_isBlank hb
    simp [Char.isAlphanum, hc] at this
  have hstart : ¬ startsNumeral (c :: cs) := by
    intro hs
    rcases isDigit_of_startsNumeral hs with hd | rfl
    . simp [not_isDigit_of_isAlpha hc] at hd
    . simp [isAlpha_eq] at hc
  rw [scan_cons, if_neg hblank, if_neg hstart, if_pos hc, hword]
  cases b <;> rfl

theorem head_of_symbol {c : Char} {cs rest : List Char} {t : Token}
    (h : Symbol.read (c :: cs) = some (t, rest))
    : isBlank c = false ∧ c.isAlpha = false ∧ c.isDigit = false ∧ c ≠ '.' := by
  unfold Symbol.read at h
  split at h
  all_goals
    next heq =>
    first
    | cases h; done
    | obtain ⟨rfl, _⟩ := List.cons.inj heq
      decide

theorem scan_symbol (size : Nat) {c : Char} {cs rest : List Char} {t : Token}
    (h : Symbol.read (c :: cs) = some (t, rest))
    : scan size (c :: cs) = (scan size rest).map (t :: ·) := by
  obtain ⟨hblank, halpha, hdigit, hdot⟩ := head_of_symbol h
  have hstart : ¬ startsNumeral (c :: cs) := by
    intro hs
    rcases isDigit_of_startsNumeral hs with hd | hd
    . simp [hdigit] at hd
    . exact hdot hd
  rw [scan_cons, if_neg (by simp [hblank]), if_neg hstart, if_neg (by simp [halpha]), h]

theorem ne_of_ends {c : Char} {cs : List Char} (h : Ends (c :: cs))
    : c ≠ '&' ∧ c ≠ '^' ∧ c ≠ '|' ∧ c ≠ '<' ∧ c ≠ '>' ∧ c ≠ '=' := by
  have hc := h c rfl
  refine ⟨?_, ?_, ?_, ?_, ?_, ?_⟩
  all_goals
    rintro rfl
    exact absurd hc (by decide)

theorem read_shorter {rest : List Char} (h : Ends rest)
    : Symbol.read ('&' :: rest) = some (.op (.binary (.bitwise .and)), rest) ∧
      Symbol.read ('|' :: rest) = some (.op (.binary (.bitwise .or)), rest) ∧
      Symbol.read ('<' :: rest) = some (.op (.binary (.comparison .lt)), rest) ∧
      Symbol.read ('>' :: rest) = some (.op (.binary (.comparison .gt)), rest) ∧
      Symbol.read ('!' :: rest) = some (.op .bang, rest) := by
  refine ⟨?_, ?_, ?_, ?_, ?_⟩
  all_goals
    rw [Symbol.read]
    all_goals
      rintro cs rfl
      simpa using ne_of_ends h

theorem read_symbol (s : Symbol) {rest : List Char} (h : Ends rest)
    : Symbol.read ((Lexeme.op s).chars ++ rest) = some (.op s, rest) := by
  obtain ⟨hand, hor, hlt, hgt, hbang⟩ := read_shorter h
  rcases s with ((_ | _) | (_ | _ | _ | _ | _ | _) | (_ | _ | _ | _) | (_ | _ | _ | _ | _ | _ | _))
    | _ | _
  case binary.comparison.lt => exact hlt
  case binary.comparison.gt => exact hgt
  case binary.bitwise.and => exact hand
  case binary.bitwise.or => exact hor
  case bang => exact hbang
  all_goals rfl

theorem scan_lexeme (size : Nat) (l : Lexeme) {rest : List Char} (h : Ends rest)
    : scan size (l.chars ++ rest) = (scan size rest).map (l.token :: ·) := by
  cases l with
  | literal l =>
    exact scan_numeral size (Spelling.startsNumeral_chars l.wellFormed rest)
      (Spelling.scanNumeral_chars l.wellFormed l.inRange h)
  | bool b =>
    have hstop : ∀ c ∈ rest.head?, c.isAlphanum = false :=
      fun c hc => not_isAlphanum_of_isBlank (h c hc)
    have hread (c : Char) (cs : List Char) (hc : c.isAlpha) (hcs : cs.all Char.isAlphanum)
        (hb : c :: cs = (Lexeme.bool b).chars)
        : scan size (c :: (cs ++ rest)) = (scan size rest).map (.bool b :: ·) := by
      have hcs' := List.all_eq_true.mp hcs
      rw [scan_word size hc _ b (by rw [takeWhile_append_stop hcs' hstop, hb]),
        dropWhile_append_stop hcs' hstop]
    cases b with
    | true => exact hread 't' ['r', 'u', 'e'] (by decide) rfl rfl
    | false => exact hread 'f' ['a', 'l', 's', 'e'] (by decide) rfl rfl
  | op s =>
    have hread := read_symbol s h
    obtain ⟨c, cs, hcs⟩ : ∃ c cs, (Lexeme.op s).chars ++ rest = c :: cs := by
      cases hcs : (Lexeme.op s).chars ++ rest with
      | nil =>
        rw [hcs] at hread
        cases hread
      | cons c cs => exact ⟨c, cs, rfl⟩
    rw [hcs] at hread ⊢
    exact scan_symbol size hread
  | lparen => exact scan_symbol size rfl
  | rparen => exact scan_symbol size rfl

theorem scan_spaced (size : Nat) {ls : List Lexeme} {cs : List Char} (h : Spaced ls cs)
    : scan size cs = .ok (ls.map Lexeme.token) := by
  induction h with
  | nil => exact scan_nil size
  | blank c hc _ ih => rw [scan_blank size hc, ih]
  | lexeme l hends _ ih => rw [scan_lexeme size l hends, ih]; rfl

theorem exists_of_symbol {cs rest : List Char} {t : Token} (h : Symbol.read cs = some (t, rest))
    : ∃ l : Lexeme, cs = l.chars ++ rest ∧ t = l.token := by
  unfold Symbol.read at h
  split at h
  all_goals cases h
  all_goals
    first
    | exact ⟨.lparen, rfl, rfl⟩
    | exact ⟨.rparen, rfl, rfl⟩
    | exact ⟨.op _, rfl, rfl⟩

/--
The token `t` stands at the front of a text, and the scanner goes on at the rest.
-/
inductive Takes : List Char → Token → List Char → Prop where
  | numeral {cs rest : List Char} {t : Token} (hs : startsNumeral cs)
      (h : scanNumeral cs = .ok (t, rest)) : Takes cs t rest
  | word {c : Char} {cs : List Char} (hc : c.isAlpha) (b : Bool)
      (hword : c :: cs.takeWhile Char.isAlphanum = (Lexeme.bool b).chars)
      : Takes (c :: cs) (.bool b) (cs.dropWhile Char.isAlphanum)
  | symbol {cs rest : List Char} {t : Token} (h : Symbol.read cs = some (t, rest))
      : Takes cs t rest

inductive Scanned : List Char → List Token → Prop where
  | nil : Scanned [] []
  | blank {c : Char} {cs : List Char} {ts : List Token} (hc : isBlank c) (h : Scanned cs ts)
      : Scanned (c :: cs) ts
  | token {cs rest : List Char} {t : Token} {ts : List Token} (ht : Takes cs t rest)
      (h : Scanned rest ts) : Scanned cs (t :: ts)

namespace Takes

variable {cs rest : List Char} {t : Token}

theorem scan (h : Takes cs t rest) (size : Nat)
    : Calc.scan size cs = (Calc.scan size rest).map (t :: ·) := by
  cases h with
  | numeral hs h => exact scan_numeral size hs h
  | word hc b hword => exact scan_word size hc _ b hword
  | symbol h =>
    cases cs with
    | nil => cases h
    | cons c cs => exact scan_symbol size h

theorem length_lt (h : Takes cs t rest) : rest.length < cs.length := by
  cases h with
  | numeral hs h => exact scanNumeral_length hs h
  | word hc b hword => exact Nat.lt_succ_of_le (Numeral.length_dropWhile_le _ _)
  | symbol h => exact Symbol.read_length h

theorem exists_lexeme (h : Takes cs t rest) : ∃ l : Lexeme, cs = l.chars ++ rest ∧ t = l.token := by
  cases h with
  | numeral hs h =>
    obtain ⟨l, hcs, ht⟩ := Literal.exists_of_scanNumeral hs h
    exact ⟨.literal l, hcs, ht⟩
  | word hc b hword =>
    exact ⟨.bool b, by rw [← hword, List.cons_append, List.takeWhile_append_dropWhile], rfl⟩
  | symbol h => exact exists_of_symbol h

end Takes

theorem exists_takes {size : Nat} {c : Char} {cs : List Char} {ts : List Token}
    (hblank : ¬ isBlank c) (h : scan size (c :: cs) = .ok ts)
    : ∃ t rest ts', Takes (c :: cs) t rest ∧ scan size rest = .ok ts' ∧ ts = t :: ts' := by
  -- Whichever way the token is read, the tokens of the rest stand behind it.
  have continues {t : Token} {rest : List Char} (ht : Takes (c :: cs) t rest)
      (h : (scan size rest).map (t :: ·) = .ok ts)
      : ∃ t rest ts', Takes (c :: cs) t rest ∧ scan size rest = .ok ts' ∧ ts = t :: ts' := by
    obtain ⟨ts', hscan, rfl⟩ := map_eq_ok.mp h
    exact ⟨t, rest, ts', ht, hscan, rfl⟩
  rw [scan_cons, if_neg hblank] at h
  split at h
  . next hstart =>
    split at h
    . cases h
    . next hnum => exact continues (.numeral hstart hnum) h
  . split at h
    . next halpha =>
      split at h
      . next htrue => exact continues (.word halpha true htrue) h
      . split at h
        . next hfalse => exact continues (.word halpha false hfalse) h
        . cases h
    . split at h
      . next hread => exact continues (.symbol hread) h
      . cases h

theorem Scanned.of_scan {size : Nat} {cs : List Char} {ts : List Token}
    (h : scan size cs = .ok ts) : Scanned cs ts := by
  induction hn : cs.length using Nat.strongRecOn generalizing cs ts with
  | _ n ih =>
    subst hn
    cases cs with
    | nil =>
      rw [scan_nil] at h
      cases h
      exact .nil
    | cons c cs =>
      by_cases hblank : isBlank c
      . rw [scan_blank size hblank] at h
        exact .blank hblank (ih _ (Nat.lt_succ_self _) h rfl)
      . obtain ⟨t, rest, ts, ht, hscan, rfl⟩ := exists_takes hblank h
        exact .token ht (ih _ ht.length_lt hscan rfl)

/--
The size of the text is of no account for its tokens, since it only tells where a fault is.
-/
theorem scan_eq_ok {size : Nat} {cs : List Char} {ts : List Token}
    : scan size cs = .ok ts ↔ Scanned cs ts := by
  refine ⟨.of_scan, fun h => ?_⟩
  induction h with
  | nil => exact scan_nil size
  | blank hc _ ih => rw [scan_blank size hc, ih]
  | token ht _ ih => rw [ht.scan size, ih]; rfl

theorem exists_spelled {size : Nat} {cs : List Char} {ts : List Token}
    (h : scan size cs = .ok ts) : ∃ ls, Spelled ls cs ∧ ts = ls.map Lexeme.token := by
  replace h := scan_eq_ok.mp h
  induction h with
  | nil => exact ⟨[], .nil, rfl⟩
  | blank hc _ ih =>
    obtain ⟨ls, hspelled, hts⟩ := ih
    exact ⟨ls, .blank _ hc hspelled, hts⟩
  | token ht _ ih =>
    obtain ⟨l, rfl, rfl⟩ := ht.exists_lexeme
    obtain ⟨ls, hspelled, rfl⟩ := ih
    exact ⟨l :: ls, .lexeme l hspelled, rfl⟩

end Runbook.Calc
