import Runbook.Pattern.Mode

/-!
This module contains what a backslash introduces in a regular expression.
-/

namespace Runbook.Pattern

inductive Atom where
  | literal (c : Char)
  | set (s : CharSet)
  | look (l : Look)
deriving Repr

/--
Punctuation may be escaped whether it has a meaning or not; the angle brackets mean word ends.
-/
def isEscapable (c : Char) : Bool :=
  c.toNat < 0x80 && !c.isAlphanum && c != '<' && c != '>'

def scalar? (digits : List Char) : Option Char :=
  let n := Text.digitsValue 16 digits
  if digits.isEmpty || !digits.all Text.isHexDigit then none
  else if h : n.isValidChar then some (Char.ofNatAux n h)
  else none

/--
A character given by exactly `count` hexadecimal digits, or by any number of them in braces.
-/
def hexEscape? (count : Nat) : List Char → Option (Atom × List Char)
  | '\x7B' :: cs =>
    match cs.dropWhile (· ≠ '\x7D') with
    | _ :: rest => (scalar? (cs.takeWhile (· ≠ '\x7D'))).map fun c => (.literal c, rest)
    | [] => none
  | cs =>
    if (cs.take count).length = count then
      (scalar? (cs.take count)).map fun c => (.literal c, cs.drop count)
    else none

def propertyOf? (m : Mode) (negated : Bool) (text : List Char) : Option CharSet := do
  if m.ascii then none
  else
    let (negated, text) := match text with
      | '^' :: text => (!negated, text)
      | text => (negated, text)
    let name := text.takeWhile fun c => c ≠ '=' ∧ c ≠ ':' ∧ c ≠ '!'
    let (negated, name) ← match text.drop name.length with
      | [] => some (negated, name)
      | '!' :: '=' :: value => some (!negated, value)
      | '!' :: _ => none
      | _ :: value => some (negated, value)
    let s := m.fold (← property? name)
    return if negated then .compl s else s

def propertyEscape? (m : Mode) (negated : Bool) : List Char → Option (Atom × List Char)
  | '\x7B' :: cs =>
    match cs.dropWhile (· ≠ '\x7D') with
    | _ :: rest => do return (.set (← propertyOf? m negated (cs.takeWhile (· ≠ '\x7D'))), rest)
    | [] => none
  | c :: cs => do return (.set (← propertyOf? m negated [c]), cs)
  | [] => none

def boundaryEscape? (cs : List Char) : Option (Atom × List Char) :=
  match cs with
  | '\x7B' :: rest =>
    let name := rest.takeWhile fun c => c.isAlpha || c == '-'
    match rest.drop name.length with
    | '\x7D' :: after =>
      match String.ofList name with
      | "start" => some (.look .wordStart, after)
      | "end" => some (.look .wordFinish, after)
      | "start-half" => some (.look .wordStartHalf, after)
      | "end-half" => some (.look .wordFinishHalf, after)
      | _ => none
    | _ => some (.look .boundary, cs)
  | _ => some (.look .boundary, cs)

def escape? (m : Mode) : List Char → Option (Atom × List Char)
  | [] => none
  | c :: cs =>
    match c with
    | 'd' => some (.set m.decimalSet, cs)
    | 's' => some (.set m.blankSet, cs)
    | 'w' => some (.set m.wordSet, cs)
    | 'D' => (m.compl? m.decimalSet).map fun s => (.set s, cs)
    | 'S' => (m.compl? m.blankSet).map fun s => (.set s, cs)
    | 'W' => (m.compl? m.wordSet).map fun s => (.set s, cs)
    | 'p' => propertyEscape? m false cs
    | 'P' => propertyEscape? m true cs
    | 'x' => hexEscape? 2 cs
    | 'u' => hexEscape? 4 cs
    | 'U' => hexEscape? 8 cs
    | 'a' => some (.literal '\x07', cs)
    | 'f' => some (.literal '\x0C', cs)
    | 'n' => some (.literal '\n', cs)
    | 'r' => some (.literal '\r', cs)
    | 't' => some (.literal '\t', cs)
    | 'v' => some (.literal '\x0B', cs)
    | 'A' => some (.look .start, cs)
    | 'z' => some (.look .finish, cs)
    | 'b' => boundaryEscape? cs
    | 'B' => if m.ascii then none else some (.look .noBoundary, cs)
    | '<' => some (.look .wordStart, cs)
    | '>' => some (.look .wordFinish, cs)
    | c => if isEscapable c then some (.literal c, cs) else none

end Runbook.Pattern
