import Runbook.Pattern.Escape
import Runbook.Proofs.Pattern.Mode

/-!
This module contains the proof that what a backslash introduces is read in the same way when the
expression stands in a group.
-/

namespace Runbook.Pattern

variable {m : Mode} {cs rest back : List Char}
variable {a : Atom} {c : Char} {ds : List Char}

theorem hexEscape?_brace (count : Nat) (ds : List Char)
    : hexEscape? count ('\x7B' :: ds) =
        match ds.dropWhile (· ≠ '\x7D') with
        | _ :: rest => (scalar? (ds.takeWhile (· ≠ '\x7D'))).map fun c => (.literal c, rest)
        | [] => none := rfl

theorem hexEscape?_of_ne_brace {count : Nat} (h : ∀ ds, cs ≠ '\x7B' :: ds)
    (hlength : count ≤ cs.length)
    : hexEscape? count cs = (scalar? (cs.take count)).map fun c => (.literal c, cs.drop count) := by
  unfold hexEscape?
  split
  . exact absurd rfl (h _)
  . rw [if_pos (List.length_take_of_le hlength)]

theorem hexEscape?_append {count : Nat} (hcount : count ≠ 0)
    (h : hexEscape? count cs = some (a, rest))
    : hexEscape? count (cs ++ back) = some (a, rest ++ back) := by
  -- Braces end the digits themselves. Without them the digits are counted.
  by_cases hbrace : ∃ ds, cs = '\x7B' :: ds
  . obtain ⟨ds, rfl⟩ := hbrace
    cases hrest : ds.dropWhile (· ≠ '\x7D') with
    | nil =>
      rw [hexEscape?_brace, hrest] at h
      cases h
    | cons c ds' =>
      rw [hexEscape?_brace, hrest] at h
      rw [List.cons_append, hexEscape?_brace, dropWhile_append_eq_cons hrest,
        takeWhile_append_of_eq_cons hrest]
      obtain ⟨d, hd, heq⟩ := Option.map_eq_some_iff.mp h
      cases heq
      rw [hd]
      rfl
  . have hlength : count ≤ cs.length := by
      unfold hexEscape? at h
      split at h
      . exact absurd ⟨_, rfl⟩ hbrace
      . split at h
        . next htake =>
          rw [List.length_take] at htake
          omega
        . cases h
    have hback : ∀ ds, cs ++ back ≠ '\x7B' :: ds := by
      intro ds hds
      cases cs with
      | nil => exact hcount (Nat.le_zero.mp hlength)
      | cons c cs =>
        injection hds with hc
        exact hbrace ⟨cs, by rw [hc]⟩
    rw [hexEscape?_of_ne_brace (not_exists.mp hbrace) hlength] at h
    rw [hexEscape?_of_ne_brace hback (by rw [List.length_append]; omega),
      List.take_append_of_le_length hlength, List.drop_append_of_le_length hlength]
    obtain ⟨d, hd, heq⟩ := Option.map_eq_some_iff.mp h
    cases heq
    rw [hd]
    rfl

theorem propertyEscape?_brace (m : Mode) (negated : Bool) (ds : List Char)
    : propertyEscape? m negated ('\x7B' :: ds) =
        match ds.dropWhile (· ≠ '\x7D') with
        | _ :: rest => do return (.set (← propertyOf? m negated (ds.takeWhile (· ≠ '\x7D'))), rest)
        | [] => none := rfl

theorem propertyEscape?_of_ne_brace {negated : Bool} (h : c ≠ '\x7B')
    : propertyEscape? m negated (c :: cs)
        = do return (.set (← propertyOf? m negated [c]), cs) := by
  unfold propertyEscape?
  split
  . next heq =>
    injection heq with hc
    exact absurd hc h
  . next heq =>
    cases heq
    rfl
  . next heq => cases heq

theorem propertyEscape?_append {negated : Bool} (h : propertyEscape? m negated cs = some (a, rest))
    : propertyEscape? m negated (cs ++ back) = some (a, rest ++ back) := by
  cases cs with
  | nil => cases h
  | cons c cs =>
    by_cases hbrace : c = '\x7B'
    . subst hbrace
      cases hrest : cs.dropWhile (· ≠ '\x7D') with
      | nil =>
        rw [propertyEscape?_brace, hrest] at h
        cases h
      | cons c ds' =>
        rw [propertyEscape?_brace, hrest] at h
        rw [List.cons_append, propertyEscape?_brace, dropWhile_append_eq_cons hrest,
          takeWhile_append_of_eq_cons hrest]
        obtain ⟨s, hs, heq⟩ := Option.bind_eq_some_iff.mp h
        cases heq
        rw [hs]
        rfl
    . rw [propertyEscape?_of_ne_brace hbrace] at h
      rw [List.cons_append, propertyEscape?_of_ne_brace hbrace]
      obtain ⟨s, hs, heq⟩ := Option.bind_eq_some_iff.mp h
      cases heq
      rw [hs]
      rfl

def isBoundaryChar (c : Char) : Bool :=
  c.isAlpha || c == '-'

def boundary? (name : String) : Option Look :=
  if name = "start" then some .wordStart
  else if name = "end" then some .wordFinish
  else if name = "start-half" then some .wordStartHalf
  else if name = "end-half" then some .wordFinishHalf
  else none

theorem takeWhile_boundary (ds : List Char)
    : ds.takeWhile (fun c => c.isAlpha || c == '-') = ds.takeWhile isBoundaryChar := rfl

theorem boundaryEscape?_of_name (h : ds.dropWhile isBoundaryChar = '\x7D' :: rest)
    : boundaryEscape? ('\x7B' :: ds)
        =
      (boundary? (String.ofList (ds.takeWhile isBoundaryChar))).map fun l => (.look l, rest) := by
  unfold boundaryEscape?
  split
  . next heq =>
    cases heq
    dsimp only
    rw [takeWhile_boundary, drop_length_takeWhile, h]
    split
    . next heq =>
      cases heq
      unfold boundary?
      split <;> simp_all
    . next hclose => exact absurd rfl (hclose rest)
  . next hopen => exact absurd rfl (hopen ds)

theorem boundaryEscape?_of_ne_name (h : ∀ rest, ds.dropWhile isBoundaryChar ≠ '\x7D' :: rest)
    : boundaryEscape? ('\x7B' :: ds) = some (.look .boundary, '\x7B' :: ds) := by
  unfold boundaryEscape?
  split
  . next heq =>
    cases heq
    dsimp only
    rw [takeWhile_boundary, drop_length_takeWhile]
    split
    . next heq => exact absurd heq (h _)
    . rfl
  . next hopen => exact absurd rfl (hopen ds)

theorem boundaryEscape?_of_ne_brace (h : ∀ ds, cs ≠ '\x7B' :: ds)
    : boundaryEscape? cs = some (.look .boundary, cs) := by
  unfold boundaryEscape?
  split
  . exact absurd rfl (h _)
  . rfl

theorem boundaryEscape?_closing (h : boundaryEscape? cs = some (a, rest))
    : boundaryEscape? (cs ++ closing) = some (a, rest ++ closing) := by
  -- A boundary with a name has to end in a brace, else the brace is no part of it.
  by_cases hbrace : ∃ ds, cs = '\x7B' :: ds
  . obtain ⟨ds, rfl⟩ := hbrace
    rw [List.cons_append]
    cases hdrop : ds.dropWhile isBoundaryChar with
    | nil =>
      have hback : (ds ++ closing).dropWhile isBoundaryChar = closing := by
        rw [List.dropWhile_append, hdrop]
        rfl
      rw [boundaryEscape?_of_ne_name (by simp [hdrop])] at h
      cases h
      apply boundaryEscape?_of_ne_name
      rw [hback]
      exact closing_ne (by decide)
    | cons c ds' =>
      have hback : (ds ++ closing).dropWhile isBoundaryChar = c :: (ds' ++ closing) :=
        dropWhile_append_eq_cons hdrop
      by_cases hc : c = '\x7D'
      . subst hc
        rw [boundaryEscape?_of_name hdrop] at h
        rw [boundaryEscape?_of_name hback, takeWhile_append_of_eq_cons hdrop]
        obtain ⟨l, hl, heq⟩ := Option.map_eq_some_iff.mp h
        cases heq
        rw [hl]
        rfl
      . rw [boundaryEscape?_of_ne_name (by simp [hdrop, hc])] at h
        cases h
        exact boundaryEscape?_of_ne_name (by simp [hback, hc])
  . rw [boundaryEscape?_of_ne_brace (not_exists.mp hbrace)] at h
    cases h
    apply boundaryEscape?_of_ne_brace
    intro ds hds
    cases cs with
    | nil => cases hds
    | cons c cs =>
      injection hds with hc
      exact hbrace ⟨cs, by rw [hc]⟩

theorem escape?_closing (h : escape? m cs = some (a, rest))
    : escape? m (cs ++ closing) = some (a, rest ++ closing) := by
  cases cs with
  | nil => cases h
  | cons c cs =>
    rw [List.cons_append]
    unfold escape? at h ⊢
    dsimp only at h ⊢
    -- Escapes that read on are classes of a property, digits and boundaries.
    split at h
    case h_4 | h_5 | h_6 =>
      obtain ⟨s, hs, heq⟩ := Option.map_eq_some_iff.mp h
      cases heq
      rw [hs]
      rfl
    case h_7 | h_8 => exact propertyEscape?_append h
    case h_9 | h_10 | h_11 => exact hexEscape?_append (by decide) h
    case h_20 => exact boundaryEscape?_closing h
    case h_21 =>
      split at h
      . cases h
      . next hascii =>
        cases h
        exact if_neg hascii
    case h_24 =>
      split at h
      . next hescapable =>
        cases h
        exact if_pos hescapable
      . cases h
    all_goals
      cases h
      rfl

end Runbook.Pattern
