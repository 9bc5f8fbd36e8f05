import Runbook.Proofs.Param.Token

/-!
This module contains when the argument tokens of a text can all be replaced, and which argument is
missed otherwise: the one that the leftmost token without an argument asks for.
-/

namespace Runbook

def argPlaces (template : String) : List Nat :=
  (argTokens template).map Piece.place

namespace Piece

variable (args : List String)

theorem substitute_arg_of_lt {digits : List Char} (h : place digits < args.length)
    : substitute args (arg digits) = .ok args[place digits].toList := by
  rw [substitute_arg, List.getElem?_eq_getElem h]

theorem substitute_arg_of_le {digits : List Char} (h : args.length ≤ place digits)
    : substitute args (arg digits) = .error (place digits) := by
  rw [substitute_arg, List.getElem?_eq_none h]

theorem mapM_substitute_error_iff (pieces : List Piece) (index : Nat)
    : pieces.mapM (substitute args) = .error index ↔
      ((pieces.filterMap digits?).map place).find? (args.length ≤ ·) = some index := by
  induction pieces with
  | nil =>
    apply iff_of_false
    . intro h
      cases h
    . intro h
      cases h
  | cons piece pieces ih =>
    have hthrough : ∀ cs : List Char,
        (do let ds ← pieces.mapM (substitute args); Except.ok (cs :: ds)) = .error index ↔
          pieces.mapM (substitute args) = .error index := by
      intro cs
      cases pieces.mapM (substitute args) with
      | error e => rfl
      | ok ds => exact iff_of_false (by intro h; cases h) (by intro h; cases h)
    rw [List.mapM_cons]
    cases piece with
    | char c =>
      rw [List.filterMap_cons_none rfl, ← ih]
      exact hthrough [c]
    | arg digits =>
      have hdigits : (arg digits :: pieces).filterMap digits?
          = digits :: pieces.filterMap digits? := rfl
      rw [hdigits, List.map_cons]
      by_cases hlt : place digits < args.length
      . rw [substitute_arg_of_lt args hlt, List.find?_cons_of_neg (by simpa using hlt), ← ih]
        exact hthrough args[place digits].toList
      . rw [Nat.not_lt] at hlt
        rw [substitute_arg_of_le args hlt, List.find?_cons_of_pos (by simpa using hlt)]
        show Except.error (place digits) = .error index ↔ _
        simp

theorem mapM_substitute_of_no_digits {pieces : List Piece} (h : pieces.filterMap digits? = [])
    : pieces.mapM (substitute args) = .ok (pieces.map text) := by
  induction pieces with
  | nil => rfl
  | cons piece pieces ih =>
    cases piece with
    | char c =>
      rw [List.mapM_cons, ih h]
      rfl
    | arg digits => cases h

end Piece

theorem substituteArgs_error_iff {template : String} {args : List String} {index : Nat}
    : substituteArgs template args = .error index ↔
      (argPlaces template).find? (args.length ≤ ·) = some index := by
  unfold argPlaces argTokens
  rw [← Piece.filterMap_digits?_ofChars, ← Piece.mapM_substitute_error_iff]
  unfold substituteArgs
  cases (Piece.ofChars template.toList).mapM (Piece.substitute args) with
  | error e =>
    show Except.error e = _ ↔ _
    simp
  | ok pieces => exact iff_of_false (by intro h; cases h) (by intro h; cases h)

theorem substituteArgs_of_no_tokens {template : String} (h : argTokens template = [])
    (args : List String) : substituteArgs template args = .ok template := by
  unfold argTokens at h
  rw [← Piece.filterMap_digits?_ofChars] at h
  unfold substituteArgs
  rw [Piece.mapM_substitute_of_no_digits args h]
  show Except.ok (String.ofList _) = _
  rw [← List.flatMap_def, Piece.flatMap_text_ofChars, String.ofList_toList]

theorem Piece.place_of_index? {digits : List Char} {index : Nat}
    (h : index? (arg digits) = some index) : place digits = index := by
  unfold place
  rw [h, Option.getD_some]

theorem Piece.place_of_unreadable {digits : List Char} (h : index? (arg digits) = none)
    : place digits = indexBound - 1 := by
  unfold place
  rw [h, Option.getD_none]

theorem Readable.argPlaces_eq {template : String} (h : Readable template)
    : argPlaces template = argIndices template := by
  unfold Readable at h
  unfold argPlaces
  rw [argIndices_eq]
  generalize argTokens template = tokens at h
  induction tokens with
  | nil => rfl
  | cons digits tokens ih =>
    rw [List.forall_mem_cons] at h
    obtain ⟨index, hindex⟩ := Option.isSome_iff_exists.mp h.1
    have hcons : (digits :: tokens).filterMap (fun digits => Piece.index? (.arg digits)) =
        index :: tokens.filterMap fun digits => Piece.index? (.arg digits) :=
      List.filterMap_cons_some hindex
    rw [hcons, List.map_cons, ih h.2, Piece.place_of_index? hindex]

theorem Readable.argTokens_eq_nil {template : String} (h : Readable template)
    (hindices : argIndices template = []) : argTokens template = [] := by
  rw [← h.argPlaces_eq] at hindices
  exact List.map_eq_nil_iff.mp hindices

section Supplied

variable {template : String} {args : List String}

theorem not_supplied_of_unreadable (h : ¬ Readable template) (hlength : args.length < indexBound)
    : ¬ ∀ digits ∈ argTokens template, Piece.place digits < args.length := by
  intro hplaces
  apply h
  intro digits hdigits
  rw [Option.isSome_iff_ne_none]
  intro hnone
  have hlt := hplaces digits hdigits
  rw [Piece.place_of_unreadable hnone] at hlt
  omega

theorem exists_substituted_iff (hlength : args.length < indexBound)
    : (∃ text, substituteArgs template args = .ok text) ↔
      Readable template ∧ ∀ i ∈ argIndices template, i < args.length := by
  rw [exists_substituteArgs_iff]
  by_cases h : Readable template
  . rw [and_iff_right h, ← h.argPlaces_eq]
    unfold argPlaces
    rw [List.forall_mem_map]
  . apply iff_of_false (not_supplied_of_unreadable h hlength)
    intro hand
    exact h hand.1

theorem substituteArgs_of_no_indices (h : ¬ Readable template) (hindices : argIndices template = [])
    (hlength : args.length < indexBound)
    : substituteArgs template args = .error (indexBound - 1) := by
  rw [substituteArgs_error_iff]
  rw [argIndices_eq] at hindices
  unfold Readable at h
  unfold argPlaces
  cases htokens : argTokens template with
  | nil =>
    rw [htokens] at h
    exact absurd (List.forall_mem_nil _) h
  | cons digits tokens =>
    have hnone := List.filterMap_eq_nil_iff.mp hindices digits
      (by rw [htokens]; exact List.mem_cons_self)
    rw [List.map_cons, Piece.place_of_unreadable hnone]
    apply List.find?_cons_of_pos
    rw [decide_eq_true_eq]
    omega

end Supplied

/--
The arguments replace all tokens of a text just if each token names an index and there is an
argument at each index. Otherwise the leftmost token without an argument is missed, where digits
that name no index ask for the last argument that a list could have.
-/
theorem substituteArgs_outcome (template : String) (args : List String)
    (hlength : args.length < indexBound)
    : ((∃ text, substituteArgs template args = .ok text) ↔
        Readable template ∧ ∀ i ∈ argIndices template, i < args.length) ∧
      (∀ index, substituteArgs template args = .error index ↔
        (argPlaces template).find? (args.length ≤ ·) = some index) ∧
      (Readable template → argPlaces template = argIndices template) ∧
      (argIndices template = [] →
        (Readable template → substituteArgs template args = .ok template) ∧
        (¬ Readable template → substituteArgs template args = .error (indexBound - 1))) := by
  refine ⟨exists_substituted_iff hlength, fun index => substituteArgs_error_iff,
    Readable.argPlaces_eq, ?_⟩
  intro hindices
  constructor
  . intro h
    exact substituteArgs_of_no_tokens (h.argTokens_eq_nil hindices) args
  . intro h
    exact substituteArgs_of_no_indices h hindices hlength

theorem substituteArgs_overlong
    : ["5"].length < indexBound ∧ argIndices "$0 $18446744073709551616 $0" = [0, 0] ∧
      (∀ i ∈ argIndices "$0 $18446744073709551616 $0", i < ["5"].length) ∧
      substituteArgs "$0 $18446744073709551616 $0" ["5"] = .error 18446744073709551615 := by
  have hlength : ["5"].length < indexBound := by decide
  have hindices : argIndices "$0 $18446744073709551616 $0" = [0, 0] := by
    rw [argIndices_eq]
    decide
  refine ⟨hlength, hindices, by rw [hindices]; decide, ?_⟩
  refine ((substituteArgs_outcome "$0 $18446744073709551616 $0" ["5"] hlength).2.1 _).mpr ?_
  decide

end Runbook
