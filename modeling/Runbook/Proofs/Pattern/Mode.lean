import Mathlib.Data.List.TakeWhile
import Runbook.Pattern.Mode

/-!
This module contains the proof that the modes of a regular expression are read in the same way when
the expression stands in a group, and where skipping blanks and comments stops in it.
-/

namespace Runbook.Pattern

section Lists

variable {p : Char → Bool} {cs back : List Char}

theorem dropWhile_append_of_ne_nil (h : cs.dropWhile p ≠ [])
    : (cs ++ back).dropWhile p = cs.dropWhile p ++ back := by
  rw [List.dropWhile_append, if_neg]
  rwa [List.isEmpty_iff]

theorem dropWhile_append_eq_cons {c : Char} {rest : List Char} (h : cs.dropWhile p = c :: rest)
    : (cs ++ back).dropWhile p = c :: (rest ++ back) := by
  rw [dropWhile_append_of_ne_nil (by simp [h]), h, List.cons_append]

theorem takeWhile_append_of_ne_nil (h : cs.dropWhile p ≠ [])
    : (cs ++ back).takeWhile p = cs.takeWhile p := by
  have htake : (cs ++ back).takeWhile p ++ (cs ++ back).dropWhile p
      = cs.takeWhile p ++ (cs.dropWhile p ++ back) := by
    rw [List.takeWhile_append_dropWhile, ← List.append_assoc, List.takeWhile_append_dropWhile]
  rw [dropWhile_append_of_ne_nil h] at htake
  exact List.append_cancel_right htake

theorem takeWhile_append_of_eq_cons {c : Char} {rest : List Char}
    (h : cs.dropWhile p = c :: rest) : (cs ++ back).takeWhile p = cs.takeWhile p :=
  takeWhile_append_of_ne_nil (h ▸ List.cons_ne_nil c rest)

theorem drop_length_takeWhile (p : Char → Bool) (cs : List Char)
    : cs.drop (cs.takeWhile p).length = cs.dropWhile p :=
  calc cs.drop (cs.takeWhile p).length
    _ = (cs.takeWhile p ++ cs.dropWhile p).drop (cs.takeWhile p).length := by
      rw [List.takeWhile_append_dropWhile]
    _ = cs.dropWhile p := List.drop_left

theorem length_dropWhile_le (p : Char → Bool) (cs : List Char)
    : (cs.dropWhile p).length ≤ cs.length :=
  (List.dropWhile_suffix p).length_le

end Lists

def closing : List Char := [')', '$']

theorem closing_ne {c : Char} (h : c ≠ ')') (rest : List Char) : closing ≠ c :: rest := by
  intro heq
  injection heq with hc
  exact h hc.symm

theorem exists_cons_of_append {cs back rest : List Char} {c : Char} (hne : cs ≠ [])
    (h : cs ++ back = c :: rest) : ∃ rest', cs = c :: rest' := by
  cases cs with
  | nil => exact absurd rfl hne
  | cons d cs =>
    injection h with hd
    exact ⟨cs, by rw [hd]⟩

theorem exists_cons_cons_of_append {cs rest : List Char} {c d : Char} (hne : cs ≠ [])
    (hd : d ≠ ')') (h : cs ++ closing = c :: d :: rest) : ∃ rest', cs = c :: d :: rest' := by
  obtain ⟨ds, rfl⟩ := exists_cons_of_append hne h
  injection h with _ h
  cases ds with
  | nil => exact absurd h (closing_ne hd rest)
  | cons e ds =>
    injection h with he
    exact ⟨ds, by rw [he]⟩

namespace Mode

variable {m : Mode} {cs back : List Char}

theorem skip_go_comment {fuel : Nat} {rest : List Char}
    (h : cs.dropWhile Text.isBlank = '#' :: rest)
    : skip.go (fuel + 1) cs = skip.go fuel (rest.dropWhile (· ≠ '\n')) := by
  rw [skip.go, h]
  rfl

theorem skip_go_stop {fuel : Nat} (h : ∀ rest, cs.dropWhile Text.isBlank ≠ '#' :: rest)
    : skip.go (fuel + 1) cs = cs.dropWhile Text.isBlank := by
  rw [skip.go]
  split
  . next heq => exact absurd heq (h _)
  . rfl

theorem skip_go_append {fuel fuel' : Nat} (hfuel : cs.length < fuel)
    (hfuel' : (cs ++ back).length < fuel') (h : skip.go fuel cs ≠ [])
    : skip.go fuel' (cs ++ back) = skip.go fuel cs ++ back := by
  induction fuel generalizing fuel' cs with
  | zero => omega
  | succ fuel ih =>
    obtain ⟨fuel', rfl⟩ : ∃ n, fuel' = n + 1 := ⟨fuel' - 1, by omega⟩
    rw [List.length_append] at hfuel'
    -- A comment that ends before the text does is skipped, and the rest by induction.
    by_cases hcomment : ∃ rest, cs.dropWhile Text.isBlank = '#' :: rest
    . obtain ⟨rest, heq⟩ := hcomment
      have hrest := length_dropWhile_le Text.isBlank cs
      rw [heq, List.length_cons] at hrest
      have hline := length_dropWhile_le (· ≠ '\n') rest
      rw [skip_go_comment heq] at h ⊢
      rw [skip_go_comment (dropWhile_append_eq_cons heq)]
      have hne : rest.dropWhile (· ≠ '\n') ≠ [] := by
        intro hnil
        rw [hnil] at h
        cases fuel <;> exact h rfl
      rw [dropWhile_append_of_ne_nil hne]
      exact ih (by omega) (by rw [List.length_append]; omega) h
    . have hstop := not_exists.mp hcomment
      rw [skip_go_stop hstop] at h ⊢
      rw [skip_go_stop, dropWhile_append_of_ne_nil h]
      intro rest
      rw [dropWhile_append_of_ne_nil h]
      cases heq : cs.dropWhile Text.isBlank with
      | nil => exact absurd heq h
      | cons c cs' =>
        rw [List.cons_append]
        intro hc
        injection hc with hc
        exact hstop cs' (by rw [heq, hc])

theorem skip_go_closing {fuel fuel' : Nat} (hfuel : cs.length < fuel)
    (hfuel' : (cs ++ closing).length < fuel') (h : skip.go fuel cs = [])
    : skip.go fuel' (cs ++ closing) = closing ∨ skip.go fuel' (cs ++ closing) = [] := by
  induction fuel generalizing fuel' cs with
  | zero => omega
  | succ fuel ih =>
    obtain ⟨fuel', rfl⟩ : ∃ n, fuel' = n + 1 := ⟨fuel' - 1, by omega⟩
    rw [List.length_append] at hfuel'
    by_cases hcomment : ∃ rest, cs.dropWhile Text.isBlank = '#' :: rest
    . obtain ⟨rest, heq⟩ := hcomment
      have hrest := length_dropWhile_le Text.isBlank cs
      rw [heq, List.length_cons] at hrest
      have hline := length_dropWhile_le (· ≠ '\n') rest
      rw [skip_go_comment heq] at h
      rw [skip_go_comment (dropWhile_append_eq_cons heq)]
      by_cases hnil : rest.dropWhile (· ≠ '\n') = []
      . have hhidden : (rest ++ closing).dropWhile (· ≠ '\n') = [] := by
          rw [List.dropWhile_append, hnil]
          rfl
        rw [hhidden]
        cases fuel' <;> exact .inr rfl
      . rw [dropWhile_append_of_ne_nil hnil]
        exact ih (by omega) (by rw [List.length_append]; omega) h
    . rw [skip_go_stop (not_exists.mp hcomment)] at h
      have hclosing : (cs ++ closing).dropWhile Text.isBlank = closing := by
        rw [List.dropWhile_append, h]
        rfl
      left
      rw [skip_go_stop, hclosing]
      rw [hclosing]
      exact fun _ => by simp [closing]

theorem skip_nil (m : Mode) : m.skip [] = [] := by
  unfold skip
  split <;> rfl

theorem skip_append (h : m.skip cs ≠ []) : m.skip (cs ++ back) = m.skip cs ++ back := by
  unfold skip at h ⊢
  split at h
  . next hverbose =>
    rw [if_pos hverbose, if_pos hverbose]
    exact skip_go_append (by omega) (by omega) h
  . next hverbose => rw [if_neg hverbose, if_neg hverbose]

theorem skip_closing (h : m.skip cs = [])
    : m.skip (cs ++ closing) = closing ∨ m.skip (cs ++ closing) = [] := by
  unfold skip at h ⊢
  split at h
  . next hverbose =>
    rw [if_pos hverbose]
    exact skip_go_closing (by omega) (by omega) h
  . next hverbose =>
    rw [if_neg hverbose, h]
    exact .inl rfl

theorem read?_append {m' : Mode} {seen rest : List Char} (h : m.read? seen cs = some (m', rest))
    : m.read? seen (cs ++ back) = some (m', rest ++ back) := by
  induction cs generalizing m seen with
  | nil => cases h
  | cons c cs ih =>
    rw [List.cons_append]
    unfold read? at h ⊢
    split at h
    . next hend =>
      rw [if_pos hend]
      split at h
      . cases h
      . next hminus =>
        rw [if_neg hminus]
        cases h
        rfl
    . next hend =>
      rw [if_neg hend]
      split at h
      . cases h
      . next hseen =>
        rw [if_neg hseen]
        split at h
        . next hminus =>
          rw [if_pos hminus]
          exact ih h
        . next hminus =>
          rw [if_neg hminus]
          obtain ⟨m₁, hswitch, h⟩ := Option.bind_eq_some_iff.mp h
          rw [hswitch, Option.bind_some]
          exact ih h

end Mode

end Runbook.Pattern
