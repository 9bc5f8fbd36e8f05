/-!
This module contains places in a YAML text: what is left of the text, and the line and column where
it starts.
-/

namespace Runbook.Yaml

def isBreak (c : Char) : Bool :=
  c == '\n' || c == '\r' || c.toNat == 0x85 || c.toNat == 0x2028 || c.toNat == 0x2029

def isSpace (c : Char) : Bool :=
  c == ' ' || c == '\t'

def endsWord : List Char → Bool
  | [] => true
  | c :: _ => isSpace c || isBreak c

def isAllowed (c : Char) : Bool :=
  let n := c.toNat
  n = 9 || n = 10 || n = 13 || (0x20 ≤ n && n ≤ 0x7E) || n = 0x85
    || (0xA0 ≤ n && n ≤ 0xFFFD && n ≠ 0xFEFF) || 0x10000 ≤ n

structure Cursor where
  rest : List Char
  line : Nat := 0
  column : Nat := 0
  /-- The number of characters before this place. -/
  index : Nat := 0
deriving Repr, DecidableEq

namespace Cursor

def next (c : Cursor) : Cursor :=
  match c.rest with
  | [] => c
  | '\r' :: '\n' :: rest => { rest, line := c.line + 1, column := 0, index := c.index + 2 }
  | x :: rest =>
    if isBreak x then { rest, line := c.line + 1, column := 0, index := c.index + 1 }
    else { rest, line := c.line, column := c.column + 1, index := c.index + 1 }

def skip (count : Nat) (c : Cursor) : Cursor :=
  { rest := c.rest.drop count, line := c.line, column := c.column + count,
    index := c.index + count }

/--
The characters of the line that satisfy `p`, and the place behind them.
-/
def span (p : Char → Bool) (c : Cursor) : List Char × Cursor :=
  let word := c.rest.takeWhile fun x => p x && !isBreak x
  (word, c.skip word.length)

def skipWhile (p : Char → Bool) (c : Cursor) : Cursor :=
  (c.span p).2

def lineEnd (c : Cursor) : Cursor :=
  c.skipWhile fun _ => true

def atBreak (c : Cursor) : Bool :=
  c.rest.head?.any isBreak

def atDocumentMark (c : Cursor) : Bool :=
  c.column = 0 &&
    match c.rest with
    | '-' :: '-' :: '-' :: rest | '.' :: '.' :: '.' :: rest => endsWord rest
    | _ => false

end Cursor

/--
What a line break reads as: a line feed, unless it is one of the two separators, which stand for
themselves.
-/
def breakChar (cs : List Char) : Char :=
  match cs with
  | c :: _ => if c.toNat == 0x2028 || c.toNat == 0x2029 then c else '\n'
  | [] => '\n'

end Runbook.Yaml
