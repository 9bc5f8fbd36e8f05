import Mathlib.Data.List.Forall2
import Runbook.Param.Template
import Runbook.Proofs.Outcome
import Runbook.Proofs.Text.Blank

/-!
This module contains the argument tokens of a text: how they are told by reading the text once, and
when there is an argument for each of them.
-/

namespace Runbook

open Text

namespace Piece

def digits? : Piece → Option (List Char)
  | char _ => none
  | arg digits => some digits

/--
The place of the argument that replaces a token. Digits that name no index stand for the last place.
-/
def place (digits : List Char) : Nat :=
  (index? (arg digits)).getD (indexBound - 1)

/--
A token that ends here. A dollar sign by itself is none.
-/
def flush : Option (List Char) → List (List Char)
  | some (d :: digits) => [d :: digits]
  | _ => []

def scan (opened : Option (List Char)) : List Char → List (List Char)
  | [] => flush opened
  | c :: cs =>
    if c = '$' then flush opened ++ scan (some []) cs
    else
      match opened with
      | some digits =>
        if isDecimal c then scan (some (digits ++ [c])) cs else flush (some digits) ++ scan none cs
      | none => scan none cs

theorem ne_dollar_of_isDecimal {c : Char} (h : isDecimal c = true) : c ≠ '$' := by
  rintro rfl
  exact absurd h (by decide)

theorem scan_dollar (opened : Option (List Char)) (cs : List Char)
    : scan opened ('$' :: cs) = flush opened ++ scan (some []) cs :=
  if_pos rfl

theorem scan_none_cons {c : Char} (hc : c ≠ '$') (cs : List Char)
    : scan none (c :: cs) = scan none cs := by
  rw [scan, if_neg hc]

theorem scan_some_decimal {c : Char} (hc : isDecimal c = true) (digits cs : List Char)
    : scan (some digits) (c :: cs) = scan (some (digits ++ [c])) cs := by
  rw [scan, if_neg (ne_dollar_of_isDecimal hc), if_pos hc]

theorem scan_some_other {c : Char} (hc : c ≠ '$') (hdecimal : isDecimal c = false)
    (digits cs : List Char)
    : scan (some digits) (c :: cs) = flush (some digits) ++ scan none cs := by
  rw [scan, if_neg hc, if_neg (by simp [hdecimal])]

theorem scan_some (digits cs : List Char)
    : scan (some digits) cs
        =
      flush (some (digits ++ cs.takeWhile isDecimal)) ++ scan none (cs.dropWhile isDecimal) := by
  induction cs generalizing digits with
  | nil => simp [scan, flush]
  | cons c cs ih =>
    cases hdecimal : isDecimal c with
    | true =>
      rw [scan_some_decimal hdecimal, ih, List.takeWhile_cons_of_pos hdecimal,
        List.dropWhile_cons_of_pos hdecimal, List.append_assoc, List.singleton_append]
    | false =>
      rw [List.takeWhile_cons_of_neg (by simp [hdecimal]),
        List.dropWhile_cons_of_neg (by simp [hdecimal]), List.append_nil]
      by_cases hc : c = '$'
      . subst hc
        rw [scan_dollar, scan_dollar]
        rfl
      . rw [scan_some_other hc hdecimal, scan_none_cons hc]

theorem filterMap_digits?_ofChars (cs : List Char)
    : (ofChars cs).filterMap digits? = scan none cs := by
  fun_induction ofChars cs with
  | case1 => rfl
  | case2 c rest hc _ ih =>
    rw [scan_dollar, scan_some, List.takeWhile_cons_of_pos hc, List.dropWhile_cons_of_pos hc, ← ih]
    rfl
  | case3 c rest hc ih =>
    rw [scan_dollar, scan_some, List.takeWhile_cons_of_neg hc, List.dropWhile_cons_of_neg hc, ← ih]
    rfl
  | case4 c rest hne ih =>
    have hskip : (char c :: ofChars rest).filterMap digits? = (ofChars rest).filterMap digits? :=
      rfl
    rw [hskip, ih]
    by_cases hc : c = '$'
    . -- A dollar sign that is not followed by anything stands last.
      subst hc
      cases rest with
      | nil => rfl
      | cons d rest => exact absurd rfl (hne d rest rfl)
    . rw [scan_none_cons hc]

theorem scan_append_of_not_mem {word : List Char} (h : '$' ∉ word) (cs : List Char)
    : scan none (word ++ cs) = scan none cs := by
  induction word with
  | nil => rfl
  | cons c word ih =>
    rw [List.mem_cons, not_or] at h
    rw [List.cons_append, scan_none_cons (Ne.symm h.1), ih h.2]

theorem scan_of_not_mem {word : List Char} (h : '$' ∉ word) : scan none word = [] := by
  have := scan_append_of_not_mem h []
  rwa [List.append_nil] at this

theorem scan_append_blanks {back : List Char} (hback : ∀ c ∈ back, isBlank c)
    (opened : Option (List Char)) (cs : List Char)
    : scan opened (cs ++ back) = scan opened cs := by
  induction cs generalizing opened with
  | nil =>
    cases back with
    | nil => rfl
    | cons c back =>
      rw [List.forall_mem_cons] at hback
      have hmark : '$' ∉ c :: back := by
        intro hmem
        rcases List.mem_cons.mp hmem with rfl | hmem
        . exact absurd hback.1 (by decide)
        . exact absurd (hback.2 _ hmem) (by decide)
      cases opened with
      | none => exact scan_of_not_mem hmark
      | some digits =>
        have hdecimal : isDecimal c = false := isDecimal_of_isBlank hback.1
        rw [List.mem_cons, not_or] at hmark
        rw [List.nil_append, scan_some_other (Ne.symm hmark.1) hdecimal, scan_of_not_mem hmark.2,
          List.append_nil]
        rfl
  | cons c cs ih =>
    rw [List.cons_append]
    unfold scan
    split
    . rw [ih]
    . split
      . split <;> rw [ih]
      . rw [ih]

theorem scan_blanks_append {front : List Char} (hfront : ∀ c ∈ front, isBlank c) (cs : List Char)
    : scan none (front ++ cs) = scan none cs := by
  apply scan_append_of_not_mem
  intro hmem
  exact absurd (hfront _ hmem) (by decide)

end Piece

def argTokens (template : String) : List (List Char) :=
  Piece.scan none template.toList

def Readable (template : String) : Prop :=
  ∀ digits ∈ argTokens template, (Piece.index? (.arg digits)).isSome

theorem argIndices_eq (template : String)
    : argIndices template = (argTokens template).filterMap fun digits => Piece.index? (.arg digits)
    := by
  unfold argIndices argTokens
  rw [← Piece.filterMap_digits?_ofChars, List.filterMap_filterMap]
  congr 1
  funext piece
  cases piece <;> rfl

theorem argTokens_trim (template : String) : argTokens (trim template) = argTokens template := by
  obtain ⟨front, back, hchars, hfront, hback⟩ := exists_trimChars template.toList
  unfold argTokens trim
  rw [String.toList_ofList]
  conv_rhs => rw [hchars, Piece.scan_append_blanks hback, Piece.scan_blanks_append hfront]

theorem argIndices_trim (template : String) : argIndices (trim template) = argIndices template := by
  rw [argIndices_eq, argIndices_eq, argTokens_trim]

theorem mapM_eq_ok_iff {ε α β : Type} {f : α → Except ε β} {xs : List α} {ys : List β}
    : xs.mapM f = .ok ys ↔ List.Forall₂ (fun x y => f x = .ok y) xs ys := by
  induction xs generalizing ys with
  | nil =>
    rw [List.forall₂_nil_left_iff]
    constructor
    . rintro ⟨⟩
      rfl
    . rintro rfl
      rfl
  | cons x xs ih =>
    rw [List.mapM_cons, List.forall₂_cons_left_iff]
    constructor
    . intro h
      obtain ⟨y, hy, h⟩ := bind_eq_ok.mp h
      obtain ⟨rest, hrest, h⟩ := bind_eq_ok.mp h
      cases h
      exact ⟨y, rest, hy, ih.mp hrest, rfl⟩
    . rintro ⟨y, rest, hy, hrest, rfl⟩
      rw [hy, ih.mpr hrest]
      rfl

theorem exists_mapM_eq_ok_iff {ε α β : Type} {f : α → Except ε β} {xs : List α}
    : (∃ ys, xs.mapM f = .ok ys) ↔ ∀ x ∈ xs, ∃ y, f x = .ok y := by
  induction xs with
  | nil => exact iff_of_true ⟨[], rfl⟩ fun x hx => absurd hx List.not_mem_nil
  | cons x xs ih =>
    rw [List.forall_mem_cons, ← ih, List.mapM_cons]
    constructor
    . rintro ⟨ys, h⟩
      obtain ⟨y, hy, h⟩ := bind_eq_ok.mp h
      obtain ⟨rest, hrest, _⟩ := bind_eq_ok.mp h
      exact ⟨⟨y, hy⟩, rest, hrest⟩
    . rintro ⟨⟨y, hy⟩, rest, hrest⟩
      exact ⟨y :: rest, by rw [hy, hrest]; rfl⟩

theorem Piece.substitute_arg (args : List String) (digits : List Char)
    : (arg digits).substitute args
        =
      match args[place digits]? with
      | some a => .ok a.toList
      | none => .error (place digits) := rfl

theorem Piece.exists_substitute_iff {args : List String} {piece : Piece}
    : (∃ cs, piece.substitute args = .ok cs) ↔
      ∀ digits, piece.digits? = some digits → place digits < args.length := by
  cases piece with
  | char c => exact iff_of_true ⟨[c], rfl⟩ fun digits h => by cases h
  | arg digits =>
    rw [substitute_arg]
    cases hget : args[place digits]? with
    | none =>
      rw [List.getElem?_eq_none_iff] at hget
      refine iff_of_false (by rintro ⟨cs, h⟩; cases h) fun h => ?_
      exact absurd (h digits rfl) (Nat.not_lt.mpr hget)
    | some a =>
      obtain ⟨hlt, _⟩ := List.getElem?_eq_some_iff.mp hget
      refine iff_of_true ⟨a.toList, rfl⟩ ?_
      rintro _ ⟨⟩
      exact hlt

theorem exists_substituteArgs_iff {template : String} {args : List String}
    : (∃ text, substituteArgs template args = .ok text) ↔
      ∀ digits ∈ argTokens template, Piece.place digits < args.length := by
  have hmap : (∃ text, substituteArgs template args = .ok text) ↔
      ∃ pieces, (Piece.ofChars template.toList).mapM (Piece.substitute args) = .ok pieces := by
    constructor
    . rintro ⟨text, h⟩
      obtain ⟨pieces, hpieces, _⟩ := map_eq_ok.mp h
      exact ⟨pieces, hpieces⟩
    . rintro ⟨pieces, hpieces⟩
      exact ⟨_, map_eq_ok.mpr ⟨pieces, hpieces, rfl⟩⟩
  rw [hmap, exists_mapM_eq_ok_iff]
  unfold argTokens
  rw [← Piece.filterMap_digits?_ofChars]
  constructor
  . intro h digits hmem
    obtain ⟨piece, hpiece, hdigits⟩ := List.mem_filterMap.mp hmem
    exact Piece.exists_substitute_iff.mp (h piece hpiece) digits hdigits
  . intro h piece hpiece
    refine Piece.exists_substitute_iff.mpr fun digits hdigits => ?_
    exact h digits (List.mem_filterMap.mpr ⟨piece, hpiece, hdigits⟩)

theorem substituteArgs_token {c : Char} (hc : isDecimal c = true) (args : List String)
    : substituteArgs (String.ofList ['$', c]) args
        =
      match args[Piece.place [c]]? with
      | some a => .ok a
      | none => .error (Piece.place [c]) := by
  have hpieces : Piece.ofChars ['$', c] = [.arg [c]] := by
    rw [Piece.ofChars, if_pos hc, List.takeWhile_nil, List.dropWhile_nil, Piece.ofChars]
  unfold substituteArgs
  rw [String.toList_ofList, hpieces, List.mapM_cons, Piece.substitute_arg]
  cases args[Piece.place [c]]? with
  | none => rfl
  | some a =>
    show Except.ok (String.ofList [a.toList].flatten) = _
    rw [List.flatten_singleton, String.ofList_toList]

def Unsupplied (args : List String) (template : String) : Prop :=
  ∃ digits ∈ argTokens template, args.length ≤ Piece.place digits

theorem exists_missing_iff {template : String} {args : List String}
    : (∃ index, substituteArgs template args = .error index) ↔ Unsupplied args template := by
  have hnot : (∃ index, substituteArgs template args = .error index) ↔
      ¬ ∃ text, substituteArgs template args = .ok text := by
    cases substituteArgs template args with
    | error index => exact iff_of_true ⟨index, rfl⟩ (by rintro ⟨text, h⟩; cases h)
    | ok text => exact iff_of_false (by rintro ⟨index, h⟩; cases h) fun h => h ⟨text, rfl⟩
  rw [hnot, exists_substituteArgs_iff]
  unfold Unsupplied
  simp only [not_forall, not_lt, exists_prop]

section Readable

variable {template : String} {args : List String}

theorem Readable.not_unsupplied (h : Readable template)
    (hargs : ∀ i ∈ argIndices template, i < args.length) : ¬ Unsupplied args template := by
  rintro ⟨digits, hdigits, hplace⟩
  obtain ⟨index, hindex⟩ := Option.isSome_iff_exists.mp (h digits hdigits)
  unfold Piece.place at hplace
  rw [hindex, Option.getD_some] at hplace
  have hmem : index ∈ argIndices template := by
    rw [argIndices_eq]
    exact List.mem_filterMap.mpr ⟨digits, hdigits, hindex⟩
  exact absurd (hargs index hmem) (Nat.not_lt.mpr hplace)

theorem Piece.place_lt (digits : List Char) : place digits < indexBound := by
  have hbound : 0 < indexBound := by decide
  unfold place index?
  dsimp only
  split
  . next h => exact h.2
  . rw [Option.getD_none]
    omega

theorem unsupplied_iff (hargs : ∀ i ∈ argIndices template, i < args.length)
    : Unsupplied args template ↔ ¬ Readable template ∧ args.length < indexBound := by
  constructor
  . intro hmissing
    refine ⟨fun hreadable => hreadable.not_unsupplied hargs hmissing, ?_⟩
    obtain ⟨digits, _, hplace⟩ := hmissing
    exact hplace.trans_lt (Piece.place_lt digits)
  . rintro ⟨hreadable, hlength⟩
    unfold Readable at hreadable
    simp only [not_forall, Option.not_isSome_iff_eq_none] at hreadable
    obtain ⟨digits, hdigits, hnone⟩ := hreadable
    refine ⟨digits, hdigits, ?_⟩
    unfold Piece.place
    rw [hnone, Option.getD_none]
    omega

end Readable

end Runbook
