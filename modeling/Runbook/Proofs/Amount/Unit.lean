import Runbook.Amount
import Runbook.Proofs.Calc.Padding

/-!
This module contains how an amount's unit is split off its text: of all units that the text ends in,
with the characters of an arithmetic expression in front, the longest is taken.
-/

namespace Runbook

/--
The text ends in `unit`, and what stands in front of it has the characters of an expression.
-/
def EndsIn (text : List Char) (unit : String) : Prop :=
  ∃ rest, text = rest ++ unit.toList ∧ Calc.isArithmetic rest

/--
The text is `rest` and the longest of the `units` it ends in, or `rest` alone if there is none.
-/
structure Splits (units : List String) (text rest : List Char) (unit : Option String) : Prop where
  text_eq : text = rest ++ (unit.getD "").toList
  fits : ∀ name, unit = some name → name ∈ units ∧ name ≠ "" ∧ Calc.isArithmetic rest
  longest : ∀ name ∈ units, EndsIn text name → name.length ≤ (unit.getD "").length

theorem Splits.of_suffix {units : List String} {text rest : List Char} {unit : Option String}
    (htext : text = rest ++ (unit.getD "").toList)
    (hfits : ∀ name, unit = some name → name ∈ units ∧ name ≠ "" ∧ Calc.isArithmetic rest)
    (hlongest : ∀ name ∈ units, name.toList <:+ text → name.length ≤ (unit.getD "").length)
    : Splits units text rest unit := by
  refine ⟨htext, hfits, ?_⟩
  rintro name hname ⟨front, hfront, _⟩
  exact hlongest name hname ⟨front, hfront.symm⟩

theorem stripUnit_eq_some {text rest : List Char} {unit : String}
    : stripUnit text unit = some rest ↔ text = rest ++ unit.toList := by
  unfold stripUnit
  dsimp only
  split
  . next hsuffix =>
    obtain ⟨front, rfl⟩ := List.isSuffixOf_iff_suffix.mp hsuffix
    simp [eq_comm]
  . next hsuffix =>
    constructor
    . intro h
      cases h
    . rintro rfl
      exact absurd (List.isSuffixOf_iff_suffix.mpr (List.suffix_append _ _)) hsuffix

theorem length_le_of_utf8ByteSize_le {text : List Char} {s s' : String} (hs : s.toList <:+ text)
    (hs' : s'.toList <:+ text) (hle : s.utf8ByteSize ≤ s'.utf8ByteSize) : s.length ≤ s'.length := by
  by_contra hlt
  rw [← String.length_toList, ← String.length_toList] at hlt
  obtain ⟨front, hfront⟩ := List.suffix_of_suffix_length_le hs' hs (by omega)
  have hsplit : s = String.ofList front ++ s' := by
    rw [String.ext_iff, String.toList_append, String.toList_ofList, hfront]
  have hpos : (String.ofList front).utf8ByteSize ≠ 0 := by
    rw [Ne, String.utf8ByteSize_eq_zero_iff, String.ext_iff, String.toList_ofList]
    rintro rfl
    rw [← hfront] at hlt
    exact hlt (Nat.le_refl _)
  rw [hsplit, String.utf8ByteSize_append] at hle
  omega

theorem mem_unitCandidates {symbols : List String} {name : String}
    : name ∈ unitCandidates symbols ↔ name ∈ commonDenominations ++ symbols :=
  (List.mergeSort_perm _ _).mem_iff

theorem pairwise_unitCandidates (symbols : List String)
    : (unitCandidates symbols).Pairwise fun a b => b.utf8ByteSize ≤ a.utf8ByteSize := by
  have hsorted : (unitCandidates symbols).Pairwise fun a b =>
      decide (b.utf8ByteSize ≤ a.utf8ByteSize) = true :=
    List.pairwise_mergeSort (fun a b c hab hbc => by simp at hab hbc ⊢; omega)
      (fun a b => by simp; omega) _
  exact hsorted.imp fun h => of_decide_eq_true h

def splitAt? (text : List Char) (unit : String) : Option (List Char × String) :=
  if unit.isEmpty then none
  else
    match stripUnit text unit with
    | some rest => if Calc.isArithmetic rest then some (rest, unit) else none
    | none => none

theorem splitUnit_eq (text : List Char) (units : List String)
    : splitUnit text units =
      match units.findSome? (splitAt? text) with
      | some (rest, unit) => (rest, some unit)
      | none => (text, none) := rfl

theorem splitAt?_eq_some {text rest : List Char} {unit unit' : String}
    : splitAt? text unit = some (rest, unit') ↔
      unit' = unit ∧ unit ≠ "" ∧ text = rest ++ unit.toList ∧ Calc.isArithmetic rest := by
  unfold splitAt?
  by_cases hempty : unit = ""
  . subst hempty
    simp
  . rw [if_neg (by simpa using hempty)]
    constructor
    . intro h
      split at h
      . next rest' hstrip =>
        split at h
        . next harith =>
          cases h
          exact ⟨rfl, hempty, stripUnit_eq_some.mp hstrip, harith⟩
        . cases h
      . cases h
    . rintro ⟨rfl, _, htext, harith⟩
      rw [stripUnit_eq_some.mpr htext]
      exact if_pos harith

theorem eq_empty_of_splitAt?_eq_none {text : List Char} {unit : String}
    (hnone : splitAt? text unit = none) (hends : EndsIn text unit) : unit = "" := by
  by_contra hempty
  obtain ⟨rest, htext, harith⟩ := hends
  rw [splitAt?_eq_some.mpr ⟨rfl, hempty, htext, harith⟩] at hnone
  cases hnone

theorem splitUnit_splits (symbols : List String) (text : List Char)
    : Splits (commonDenominations ++ symbols) text (splitUnit text (unitCandidates symbols)).1
        (splitUnit text (unitCandidates symbols)).2 := by
  rw [splitUnit_eq]
  split
  . next rest name hfind =>
    obtain ⟨longer, name', shorter, hunits, hname', hlonger⟩ := List.findSome?_eq_some_iff.mp hfind
    obtain ⟨rfl, hne, htext, harith⟩ := splitAt?_eq_some.mp hname'
    have hmem : name ∈ commonDenominations ++ symbols := by
      rw [← mem_unitCandidates, hunits]
      simp
    have hpairs := pairwise_unitCandidates symbols
    rw [hunits, List.pairwise_append, List.pairwise_cons] at hpairs
    refine ⟨htext, ?_, ?_⟩
    . intro name' h
      cases h
      exact ⟨hmem, hne, harith⟩
    . intro other hother hends
      rw [← mem_unitCandidates, hunits, List.mem_append, List.mem_cons] at hother
      rcases hother with hother | rfl | hother
      . rw [eq_empty_of_splitAt?_eq_none (hlonger other hother) hends]
        exact Nat.zero_le _
      . exact Nat.le_refl _
      . obtain ⟨rest', htext', _⟩ := hends
        exact length_le_of_utf8ByteSize_le ⟨_, htext'.symm⟩ ⟨_, htext.symm⟩
          (hpairs.2.1.1 other hother)
  . next hnone =>
    refine ⟨(List.append_nil text).symm, fun _ h => (by cases h), ?_⟩
    intro other hother hends
    rw [List.findSome?_eq_none_iff] at hnone
    rw [eq_empty_of_splitAt?_eq_none (hnone other (mem_unitCandidates.mpr hother)) hends]
    exact Nat.zero_le _

theorem Splits.length_unit_le {units : List String} {text rest rest' : List Char}
    {unit unit' : Option String} (h : Splits units text rest unit)
    (h' : Splits units text rest' unit') : (unit.getD "").length ≤ (unit'.getD "").length := by
  cases unit with
  | none => exact Nat.zero_le _
  | some name =>
    obtain ⟨hmem, _, harith⟩ := h.fits name rfl
    exact h'.longest name hmem ⟨rest, h.text_eq, harith⟩

theorem Splits.unique {units : List String} {text rest rest' : List Char}
    {unit unit' : Option String} (h : Splits units text rest unit)
    (h' : Splits units text rest' unit') : rest = rest' ∧ unit = unit' := by
  have hlength : (unit.getD "").length = (unit'.getD "").length :=
    Nat.le_antisymm (h.length_unit_le h') (h'.length_unit_le h)
  have hsplit := h.text_eq.symm.trans h'.text_eq
  obtain ⟨hrest, hunit⟩ := List.append_inj' hsplit
    (by rw [String.length_toList, String.length_toList, hlength])
  refine ⟨hrest, ?_⟩
  have hname := String.toList_inj.mp hunit
  cases unit with
  | none =>
    cases unit' with
    | none => rfl
    | some name' => exact absurd hname.symm (h'.fits name' rfl).2.1
  | some name =>
    cases unit' with
    | none => exact absurd hname (h.fits name rfl).2.1
    | some name' => rw [show name = name' from hname]

end Runbook
