import Runbook.Number.Power
import Runbook.Text.Digit

/-!
This module contains texts with argument tokens: a dollar sign and the index of an argument.
-/

namespace Runbook

inductive Piece where
  | char (c : Char)
  | arg (digits : List Char)
deriving Repr, DecidableEq

def indexBound : Nat := 2 ^ 64

namespace Piece

def text : Piece → List Char
  | char c => [c]
  | arg digits => '$' :: digits

def index? : Piece → Option Nat
  | char _ => none
  | arg digits =>
    if digits.all Char.isDigit ∧ Text.digitsValue 10 digits < indexBound then
      some (Text.digitsValue 10 digits)
    else
      none

def ofChars (cs : List Char) : List Piece :=
  match cs with
  | [] => []
  | '$' :: c :: rest =>
    if Text.isDecimal c then
      have := (List.dropWhile_suffix (l := rest) Text.isDecimal).length_le
      arg (c :: rest.takeWhile Text.isDecimal) :: ofChars (rest.dropWhile Text.isDecimal)
    else
      char '$' :: ofChars (c :: rest)
  | c :: rest => char c :: ofChars rest
termination_by cs.length
decreasing_by all_goals simp; try omega

theorem flatMap_text_ofChars (cs : List Char) : (ofChars cs).flatMap text = cs := by
  fun_induction ofChars cs with
  | case1 => rfl
  | case2 c rest _ _ ih => simp [text, ih]
  | case3 c rest _ ih => simp [text, ih]
  | case4 c rest _ ih => simp [text, ih]

def substitute (args : List String) : Piece → Except Nat (List Char)
  | char c => pure [c]
  | arg digits =>
    let index := (index? (arg digits)).getD (indexBound - 1)
    match args[index]? with
    | some a => pure a.toList
    | none => throw index

end Piece

def argIndices (template : String) : List Nat :=
  (Piece.ofChars template.toList).filterMap Piece.index?

/--
Replace each argument token. If arguments are missing, the index of the first such token is the
error.
-/
def substituteArgs (template : String) (args : List String) : Except Nat String :=
  ((Piece.ofChars template.toList).mapM (Piece.substitute args)).map fun pieces =>
    String.ofList pieces.flatten

end Runbook
