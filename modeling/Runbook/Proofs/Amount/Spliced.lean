import Runbook.Proofs.Amount.Text
import Runbook.Proofs.Param.Missing

/-!
This module contains which amounts fail for a missing argument. Balances are put into a value text
before its argument tokens are looked for, so a token that a balance follows takes its digits.
-/

namespace Runbook

open Text

namespace ValuePiece

def text : ValuePiece → List Char
  | char c => [c]
  | wallet name field => '@' :: name ++ (field.map ('.' :: ·)).getD []

theorem fieldOf_append (cs : List Char)
    : ((fieldOf cs).1.map ('.' :: ·)).getD [] ++ (fieldOf cs).2 = cs := by
  unfold fieldOf
  split
  . split
    . simp
    . rfl
  . rfl

theorem flatMap_text_ofChars (cs : List Char) : (ofChars cs).flatMap text = cs := by
  fun_induction ofChars cs with
  | case1 => rfl
  | case2 c rest _ _ _ ih =>
    have happend := fieldOf_append (rest.dropWhile isNameChar)
    simp only [List.flatMap_cons, text, ih, List.cons_append, List.append_assoc, happend,
      List.takeWhile_append_dropWhile]
  | case3 c rest _ ih => simp [text, ih]
  | case4 c rest _ ih => simp [text, ih]

theorem not_mem_takeWhile {p : Char → Bool} {c : Char} (h : p c = false) (cs : List Char)
    : c ∉ cs.takeWhile p := by
  intro hmem
  have := List.mem_takeWhile_imp hmem
  rw [h] at this
  cases this

theorem not_mem_fieldOf (cs : List Char) : '$' ∉ ((fieldOf cs).1.map ('.' :: ·)).getD [] := by
  unfold fieldOf
  split
  . next c rest =>
    split
    . next hc =>
      have hne : '$' ≠ c := by
        rintro rfl
        exact absurd hc (by decide)
      have hrest := not_mem_takeWhile (show Char.isAlpha '$' = false by decide) rest
      simp [hne, hrest]
    . exact List.not_mem_nil
  . exact List.not_mem_nil

theorem not_mem_text_of_wallet {cs name : List Char} {field : Option (List Char)}
    (h : wallet name field ∈ ofChars cs) : '$' ∉ (wallet name field).text := by
  fun_induction ofChars cs with
  | case1 => cases h
  | case2 c rest hc _ _ ih =>
    cases List.mem_cons.mp h with
    | inl heq =>
      cases heq
      have hne : '$' ≠ c := by
        rintro rfl
        exact absurd hc (by decide)
      have hname := not_mem_takeWhile (show isNameChar '$' = false by decide) rest
      have hfield := not_mem_fieldOf (rest.dropWhile isNameChar)
      unfold text
      simp only [List.cons_append, List.mem_cons, List.mem_append, not_or]
      exact ⟨by decide, hne, hname, hfield⟩
    | inr hmem => exact ih hmem
  | case3 c rest _ ih =>
    cases List.mem_cons.mp h with
    | inl heq => cases heq
    | inr hmem => exact ih hmem
  | case4 c rest _ ih =>
    cases List.mem_cons.mp h with
    | inl heq => cases heq
    | inr hmem => exact ih hmem

/--
No wallet token stands behind a dollar sign with nothing but digits between them. `opened` tells
whether such a sign and digits stand in front.
-/
def apart (opened : Bool) : List ValuePiece → Bool
  | [] => true
  | char c :: pieces => apart (c == '$' || opened && isDecimal c) pieces
  | wallet _ _ :: pieces => !opened && apart false pieces

def Splices : ValuePiece → List Char → Prop
  | char c, cs => cs = [c]
  | wallet _ _, cs => '$' ∉ cs

theorem scan_spliced {pieces : List ValuePiece} {splices : List (List Char)}
    (h : List.Forall₂ Splices pieces splices)
    (hwallets : ∀ name field, wallet name field ∈ pieces → '$' ∉ (wallet name field).text)
    (opened : Option (List Char)) (hapart : apart opened.isSome pieces = true)
    : Piece.scan opened splices.flatten = Piece.scan opened (pieces.flatMap text) := by
  induction h generalizing opened with
  | nil => rfl
  | @cons piece splice pieces splices hsplice _ ih =>
    rw [List.flatten_cons, List.flatMap_cons]
    have hrest : ∀ name field, wallet name field ∈ pieces → '$' ∉ (wallet name field).text :=
      fun name field hmem => hwallets name field (List.mem_cons_of_mem _ hmem)
    -- A character is the same on both sides. Where a wallet stands, no token is open on either.
    cases piece with
    | char c =>
      cases hsplice
      have htext : text (char c) = [c] := rfl
      rw [htext, List.singleton_append, List.singleton_append]
      unfold apart at hapart
      by_cases hc : c = '$'
      . subst hc
        rw [Piece.scan_dollar, Piece.scan_dollar, ih hrest (some []) hapart]
      . have hfalse : (c == '$') = false := beq_eq_false_iff_ne.mpr hc
        rw [hfalse, Bool.false_or] at hapart
        cases opened with
        | none => rw [Piece.scan_none_cons hc, Piece.scan_none_cons hc, ih hrest none hapart]
        | some digits =>
          cases hdecimal : isDecimal c with
          | true =>
            rw [hdecimal] at hapart
            rw [Piece.scan_some_decimal hdecimal, Piece.scan_some_decimal hdecimal,
              ih hrest (some (digits ++ [c])) hapart]
          | false =>
            rw [hdecimal] at hapart
            rw [Piece.scan_some_other hc hdecimal, Piece.scan_some_other hc hdecimal,
              ih hrest none hapart]
    | wallet name field =>
      unfold apart at hapart
      rw [Bool.and_eq_true] at hapart
      cases opened with
      | some digits => exact absurd hapart.1 (by simp)
      | none =>
        rw [Piece.scan_append_of_not_mem hsplice,
          Piece.scan_append_of_not_mem (hwallets name field (List.mem_cons_self ..)),
          ih hrest none hapart.2]

end ValuePiece

def Apart (text : String) : Prop :=
  ValuePiece.apart false (ValuePiece.ofChars text.toList) = true

theorem not_mem_of_walletBalance {wallets : Directory} {wallet field balance : String}
    (h : walletBalance wallets wallet field = .ok balance) : '$' ∉ balance.toList := by
  unfold walletBalance at h
  split at h
  . cases h
  . split at h
    . cases h
    . split at h
      . next n _ _ =>
        cases h
        intro hmem
        cases forall_mem_toString n '$' hmem with
        | inl hdigit => exact absurd hdigit (by decide)
        | inr heq => exact absurd heq (by decide)
      . cases h

theorem exists_splices {wallets : Directory} {text spliced : String}
    (h : substituteBalances wallets text = .ok spliced)
    : ∃ splices, List.Forall₂ ValuePiece.Splices (ValuePiece.ofChars text.toList) splices ∧
        spliced.toList = splices.flatten := by
  obtain ⟨splices, hmap, h⟩ := bind_eq_ok.mp h
  cases h
  refine ⟨splices, (mapM_eq_ok_iff.mp hmap).imp ?_, String.toList_ofList⟩
  intro piece splice hsplice
  cases piece with
  | char c =>
    cases hsplice
    rfl
  | wallet name field =>
    obtain ⟨balance, hbalance, rfl⟩ := map_eq_ok.mp hsplice
    exact not_mem_of_walletBalance hbalance

theorem argTokens_of_substituteBalances {wallets : Directory} {text spliced : String}
    (h : substituteBalances wallets text = .ok spliced) (hapart : Apart text)
    : argTokens spliced = argTokens text := by
  obtain ⟨splices, hsplices, hspliced⟩ := exists_splices h
  unfold argTokens
  rw [hspliced, ValuePiece.scan_spliced hsplices
    (fun name field => ValuePiece.not_mem_text_of_wallet) none hapart,
    ValuePiece.flatMap_text_ofChars]

example : Apart "$0 + @alice.balance" := by
  unfold Apart
  decide +kernel

example : ¬ Apart "$0@alice.balance" := by
  unfold Apart
  decide +kernel

open Result

theorem not_lacks_walletBalance (wallets : Directory) (wallet field : String)
    : ¬ LacksArgument (walletBalance wallets wallet field) := by
  unfold walletBalance
  split
  . exact not_lacks_fail (.append (.append (by decide) _) _)
  . split
    . exact not_lacks_fail (.append (.append (by decide) _) _)
    . split
      . exact not_lacks_ok _
      . exact not_lacks_fail (.append (.append (by decide) _) _)

theorem not_lacks_substituteBalances (wallets : Directory) (text : String)
    : ¬ LacksArgument (substituteBalances wallets text) := by
  refine not_lacks_bind (not_lacks_mapM ?_) fun pieces _ => not_lacks_ok _
  intro piece _
  cases piece with
  | char c => exact not_lacks_ok _
  | wallet name field =>
    show ¬ LacksArgument ((walletBalance _ _ _).map _)
    rw [lacks_map_iff]
    exact not_lacks_walletBalance _ _ _

theorem not_lacks_toAmount (n : Int) : ¬ LacksArgument (toAmount n) := by
  unfold toAmount
  split
  . exact not_lacks_fail (.append (.append (by decide) _) _)
  . split
    . exact not_lacks_ok _
    . exact not_lacks_fail (.append (.append (by decide) _) _)

theorem Amount.not_lacks_ofText (symbols : List String) (text : String)
    : ¬ LacksArgument (ofText symbols text) := by
  rw [ofText_eq]
  dsimp only
  split
  . exact not_lacks_fail (.append (.append (by decide) _) _)
  . refine not_lacks_bind ?_ fun value _ => not_lacks_bind (not_lacks_toAmount _) fun n _ =>
      not_lacks_ok _
    rw [lacks_changeKind_iff]
    exact not_lacks_evaluateInt _

theorem Amount.lacks_parse_iff (symbols args : List String) (wallets : Directory) (text : String)
    : LacksArgument (parse symbols args wallets text) ↔
      ∃ spliced, substituteBalances wallets text = .ok spliced ∧ Unsupplied args spliced := by
  unfold parse
  rw [lacks_attach_iff (.append (.append (by decide) _) _)]
  cases hspliced : substituteBalances wallets text with
  | error e =>
    refine iff_of_false ?_ (by rintro ⟨spliced, h, _⟩; cases h)
    rintro ⟨_, ⟨⟩, hlacks⟩
    exact not_lacks_substituteBalances wallets text ⟨e, hspliced, hlacks⟩
  | ok spliced =>
    have hunsupplied : (∃ spliced', (.ok spliced : Result String) = .ok spliced' ∧
        Unsupplied args spliced') ↔ ∃ index, substituteArgs spliced args = .error index := by
      simp only [Except.ok.injEq, exists_eq_left', exists_missing_iff]
    rw [hunsupplied]
    dsimp only [bind, Except.bind]
    cases hsub : substituteArgs spliced args with
    | error index =>
      refine iff_of_true (lacks_fail ?_) ⟨index, rfl⟩
      have hmark : missingMark.toList <+: "insufficient arguments: $".toList := by decide
      simp only [String.toList_append, List.append_assoc]
      exact hmark.trans (List.prefix_append _ _)
    | ok filled =>
      exact iff_of_false (not_lacks_ofText symbols filled) (by rintro ⟨index, h⟩; cases h)

end Runbook
