import Mathlib.Data.List.DropRight
import Runbook.Text.Blank
import Runbook.Text.Digit

/-!
This module contains which characters are blanks, and what trimming by them leaves.
-/

namespace Runbook.Text

def blankCodes : List Nat :=
  [0x09, 0x0A, 0x0B, 0x0C, 0x0D, 0x20, 0x85, 0xA0, 0x1680, 0x2000, 0x2001, 0x2002, 0x2003, 0x2004,
   0x2005, 0x2006, 0x2007, 0x2008, 0x2009, 0x200A, 0x2028, 0x2029, 0x202F, 0x205F, 0x3000]

theorem mem_blankCodes {c : Char} (h : isBlank c) : c.toNat ∈ blankCodes := by
  simp only [isBlank, Bool.or_eq_true, Bool.and_eq_true, decide_eq_true_eq] at h
  simp only [blankCodes, List.mem_cons, List.not_mem_nil, or_false]
  omega

theorem isDecimal_of_isBlank {c : Char} (h : isBlank c) : isDecimal c = false := by
  have hcodes : ∀ n ∈ blankCodes, (decimalZeros.any fun z => z ≤ n && n ≤ z + 9) = false := by
    decide
  exact hcodes _ (mem_blankCodes h)

theorem trimChars_eq_rdropWhile (cs : List Char)
    : trimChars cs = (cs.dropWhile isBlank).rdropWhile isBlank := rfl

theorem exists_trimChars (cs : List Char)
    : ∃ front back,
        cs = front ++ trimChars cs ++ back ∧ (∀ c ∈ front, isBlank c) ∧ ∀ c ∈ back, isBlank c := by
  refine ⟨cs.takeWhile isBlank, (cs.dropWhile isBlank).rtakeWhile isBlank, ?_, ?_, ?_⟩
  . rw [trimChars_eq_rdropWhile, List.append_assoc, List.rdropWhile_append_rtakeWhile,
      List.takeWhile_append_dropWhile]
  . intro c hc
    exact List.mem_takeWhile_imp hc
  . intro c hc
    exact List.mem_rtakeWhile_imp hc

theorem trimChars_sublist (cs : List Char) : (trimChars cs).Sublist cs := by
  rw [trimChars_eq_rdropWhile]
  exact (List.rdropWhile_prefix _ _).sublist.trans (List.dropWhile_sublist _)

theorem dropWhile_append_of_all {p : Char → Bool} {front : List Char} (h : ∀ c ∈ front, p c)
    (cs : List Char) : (front ++ cs).dropWhile p = cs.dropWhile p := by
  rw [List.dropWhile_append, List.dropWhile_eq_nil_iff.mpr h]
  simp

theorem rdropWhile_append_of_all {p : Char → Bool} {back : List Char} (h : ∀ c ∈ back, p c)
    (cs : List Char) : (cs ++ back).rdropWhile p = cs.rdropWhile p := by
  unfold List.rdropWhile
  rw [List.reverse_append, dropWhile_append_of_all]
  intro c hc
  exact h c (List.mem_reverse.mp hc)

theorem takeWhile_append_of_none {p : Char → Bool} {back : List Char} (h : ∀ c ∈ back, p c = false)
    (cs : List Char) : (cs ++ back).takeWhile p = cs.takeWhile p := by
  have hback : back.takeWhile p = [] := by
    cases back with
    | nil => rfl
    | cons c back => rw [List.takeWhile_cons_of_neg (by simp [h c (List.mem_cons_self ..)])]
  rw [List.takeWhile_append, hback]
  split
  . next hlength => rw [List.append_nil, (List.takeWhile_prefix p).eq_of_length hlength]
  . rfl

theorem dropWhile_append_of_none {p : Char → Bool} {back : List Char} (h : ∀ c ∈ back, p c = false)
    (cs : List Char) : (cs ++ back).dropWhile p = cs.dropWhile p ++ back := by
  have htake : (cs ++ back).takeWhile p ++ (cs ++ back).dropWhile p
      = cs.takeWhile p ++ (cs.dropWhile p ++ back) := by
    rw [List.takeWhile_append_dropWhile, ← List.append_assoc, List.takeWhile_append_dropWhile]
  rw [takeWhile_append_of_none h] at htake
  exact List.append_cancel_left htake

theorem trim_of_none {s : String} (h : ∀ c ∈ s.toList, isBlank c = false) : trim s = s := by
  have hdrop {cs : List Char} (h : ∀ c ∈ cs, isBlank c = false) : cs.dropWhile isBlank = cs :=
    dropWhile_append_of_none h []
  unfold trim trimChars
  rw [hdrop h, hdrop (by simpa using h), List.reverse_reverse, String.ofList_toList]

theorem trimChars_append {front back : List Char} (hfront : ∀ c ∈ front, isBlank c)
    (hback : ∀ c ∈ back, isBlank c) (cs : List Char)
    : trimChars (front ++ cs ++ back) = trimChars cs := by
  rw [trimChars_eq_rdropWhile, List.append_assoc, dropWhile_append_of_all hfront,
    List.dropWhile_append]
  split
  . next hempty =>
    rw [trimChars_eq_rdropWhile, List.isEmpty_iff.mp hempty, List.dropWhile_eq_nil_iff.mpr hback]
  . rw [rdropWhile_append_of_all hback, trimChars_eq_rdropWhile]

theorem trimChars_trimChars (cs : List Char) : trimChars (trimChars cs) = trimChars cs := by
  obtain ⟨front, back, hcs, hfront, hback⟩ := exists_trimChars cs
  conv_rhs => rw [hcs, trimChars_append hfront hback]

theorem trimChars_dropWhile (cs : List Char) : trimChars (cs.dropWhile isBlank) = trimChars cs := by
  rw [trimChars_eq_rdropWhile, List.dropWhile_idempotent, trimChars_eq_rdropWhile]

theorem trimChars_append_of_not_isBlank {back : List Char} (hne : back ≠ [])
    (hback : ∀ c ∈ back, isBlank c = false) (cs : List Char)
    : trimChars (cs ++ back) = cs.dropWhile isBlank ++ back := by
  have hkeep : ∀ front : List Char, (front ++ back).rdropWhile isBlank = front ++ back := by
    intro front
    rw [List.rdropWhile_eq_self_iff]
    intro hl
    rw [List.getLast_append_of_ne_nil _ hne, hback _ (List.getLast_mem hne)]
    exact Bool.false_ne_true
  have hhead : back.dropWhile isBlank = back := by
    rw [List.dropWhile_eq_self_iff]
    intro hl
    rw [hback _ (List.getElem_mem hl)]
    exact Bool.false_ne_true
  rw [trimChars_eq_rdropWhile, List.dropWhile_append]
  split
  . next hempty =>
    rw [List.isEmpty_iff.mp hempty, hhead]
    exact hkeep []
  . exact hkeep _

theorem trimChars_map {f : Char → Char} (hf : ∀ c, isBlank (f c) = isBlank c) (cs : List Char)
    : trimChars (cs.map f) = (trimChars cs).map f := by
  have hcomp : isBlank ∘ f = isBlank := funext hf
  unfold trimChars
  rw [List.dropWhile_map, hcomp, ← List.map_reverse, List.dropWhile_map, hcomp, List.map_reverse]

end Runbook.Text
