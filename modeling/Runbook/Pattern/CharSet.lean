import Runbook.Text.Blank
import Runbook.Text.Letter

/-!
This module contains sets of characters as patterns write them down.
-/

namespace Runbook

inductive CharSet where
  | range (first last : Char)
  | word
  | decimal
  | blank
  | letter
  | capital
  | small
  /-- The characters whose code points lie in one of the ranges. -/
  | table (ranges : List (Nat × Nat))
  | union (a b : CharSet)
  | inter (a b : CharSet)
  | compl (a : CharSet)
  /-- The characters that differ from one in `a` by letter case at most. -/
  | anyCase (a : CharSet)
deriving Repr, Inhabited, DecidableEq

namespace CharSet

def single (c : Char) : CharSet :=
  range c c

def none : CharSet :=
  table []

def any : CharSet :=
  compl none

def diff (a b : CharSet) : CharSet :=
  inter a (compl b)

def symmDiff (a b : CharSet) : CharSet :=
  union (diff a b) (diff b a)

def ofRanges (ranges : List (Char × Char)) : CharSet :=
  table (ranges.map fun (first, last) => (first.toNat, last.toNat))

def caseVariants (c : Char) : List Char :=
  let small := Text.mapRuns Text.lowerRuns c
  let capital := Text.mapRuns Text.upperRuns c
  [c, small, capital, Text.mapRuns Text.lowerRuns capital, Text.mapRuns Text.upperRuns small]

def contains : CharSet → Char → Bool
  | range first last, c => first ≤ c && c ≤ last
  | word, c => Text.isWord c
  | decimal, c => Text.isDecimal c
  | blank, c => Text.isBlank c
  | letter, c => Text.isLetter c
  | capital, c => Text.isCapital c
  | small, c => Text.isSmall c
  | table ranges, c => Text.inRanges ranges c
  | union a b, c => a.contains c || b.contains c
  | inter a b, c => a.contains c && b.contains c
  | compl a, c => !a.contains c
  | anyCase a, c => (caseVariants c).any a.contains

end CharSet

end Runbook
