import Runbook.Number.Power
import Runbook.Text.Digit

/-!
This module contains the quantities of settings: whole numbers of up to 256 bits, in decimal or
behind the mark of another radix.
-/

namespace Runbook.Number

/--
The number of digits in radix `radix`. Underscores between digits do not count.
-/
def digits? (radix : Nat) (cs : List Char) : Option Nat :=
  let digits := cs.filter (· ≠ '_')
  let value := Text.digitsValue radix digits
  if digits.all (fun c => Text.isHexDigit c && Text.digitValue c < radix) ∧ value < 2 ^ 256 then
    some value
  else
    none

/--
The number that a quantity's text stands for. No digits are zero.
-/
def quantity? (s : String) : Option Nat :=
  match s.toList with
  | '0' :: 'x' :: cs | '0' :: 'X' :: cs => digits? 16 cs
  | '0' :: 'o' :: cs | '0' :: 'O' :: cs => digits? 8 cs
  | '0' :: 'b' :: cs | '0' :: 'B' :: cs => digits? 2 cs
  | cs => digits? 10 cs

end Runbook.Number
