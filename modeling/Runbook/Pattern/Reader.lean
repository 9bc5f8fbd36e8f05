import Runbook.Number.Power
import Runbook.Pattern.Bracket

/-!
This module contains the reading of regular expressions.
-/

namespace Runbook.Pattern

/--
A group that is not closed yet: the alternatives before the current one, and the parts of that one,
last part first. A switch of modes is a part without a pattern, which cannot be repeated.
-/
structure Group where
  mode : Mode
  before : Option Pattern
  parts : List (Option Pattern)

namespace Group

def ofMode (mode : Mode) : Group :=
  { mode, before := none, parts := [] }

def add (g : Group) (p : Pattern) : Group :=
  { g with parts := some p :: g.parts }

def current (g : Group) : Pattern :=
  (g.parts.reverse.filterMap id).foldr seq empty

def value (g : Group) : Pattern :=
  match g.before with
  | none => g.current
  | some p => alt p g.current

/--
Begin another alternative. Modes stay switched.
-/
def next (g : Group) : Group :=
  { g with before := some g.value, parts := [] }

def repeatLast? (g : Group) (least : Nat) (most : Option Nat) : Option Group :=
  match g.parts with
  | some p :: parts => some { g with parts := some (times p least most) :: parts }
  | _ => none

def addAtom? (g : Group) : Atom → Option Group
  | .literal c => do
    let c ← literal? g.mode c
    return g.add (char (g.mode.fold (.single c)))
  | .set s => some (g.add (char s))
  | .look l => some (g.add (look l g.mode.wordSet))

end Group

def countBound : Nat := 2 ^ 32

def count? (m : Mode) (cs : List Char) : Option (Nat × List Char) :=
  let cs := cs.dropWhile Text.isBlank
  let digits := cs.takeWhile Char.isDigit
  let n := Text.digitsValue 10 digits
  if digits.isEmpty ∨ countBound ≤ n then none
  else some (n, m.skip ((m.skip (cs.drop digits.length)).dropWhile Text.isBlank))

def counts? (m : Mode) (cs : List Char) : Option (Nat × Option Nat × List Char) := do
  let (least, cs) ← count? m (m.skip cs)
  match cs with
  | '\x7D' :: cs => return (least, some least, cs)
  | ',' :: cs =>
    match m.skip cs with
    | '\x7D' :: cs => return (least, none, cs)
    | cs =>
      let (most, cs) ← count? m cs
      match cs with
      | '\x7D' :: cs => if least ≤ most then return (least, some most, cs) else none
      | _ => none
  | _ => none

def dropLazy (m : Mode) (cs : List Char) : List Char :=
  match m.skip cs with
  | '?' :: cs => cs
  | cs => cs

def isNameStart (c : Char) : Bool :=
  c == '_' || Text.isLetter c

def isNameChar (c : Char) : Bool :=
  isNameStart c || Text.isDecimal c || c == '.' || c == '[' || c == ']'

def groupName? (cs : List Char) : Option (String × List Char) :=
  let name := cs.takeWhile (· ≠ '>')
  match name, cs.drop name.length with
  | c :: more, _ :: rest =>
    if isNameStart c && more.all isNameChar then some (String.ofList name, rest) else none
  | _, _ => none

inductive Opening where
  | group (mode : Mode) (name : Option String)
  | switch (mode : Mode)

/--
Read what follows an opening parenthesis. There are no groups that look ahead or behind.
-/
def opening? (m : Mode) (cs : List Char) : Option (Opening × List Char) :=
  match m.skip cs with
  | '?' :: 'P' :: '<' :: cs => (groupName? cs).map fun (name, cs) => (.group m name, cs)
  | '?' :: '<' :: '=' :: _ | '?' :: '<' :: '!' :: _ | '?' :: '=' :: _ | '?' :: '!' :: _ => none
  | '?' :: '<' :: cs => (groupName? cs).map fun (name, cs) => (.group m name, cs)
  | '?' :: cs => do
    let (m', rest) ← m.read? [] cs
    match rest with
    -- A switch names a mode at least.
    | ')' :: after => if rest.length = cs.length then none else return (.switch m', after)
    | _ :: after => return (.group m' none, after)
    | [] => none
  | cs => some (.group m none, cs)

/--
Read the rest of the innermost group and of all those around it. Every round takes a character.
-/
def groups? (names : List String) : Nat → Group → List Group → List Char → Option Pattern
  | 0, _, _, _ => none
  | fuel + 1, g, outer, cs =>
    match g.mode.skip cs with
    | [] => if outer.isEmpty then some g.value else none
    | '(' :: cs =>
      match opening? g.mode cs with
      | none => none
      | some (.switch mode, cs) =>
        groups? names fuel { g with mode, parts := none :: g.parts } outer cs
      | some (.group mode none, cs) => groups? names fuel (.ofMode mode) (g :: outer) cs
      | some (.group mode (some name), cs) =>
        if names.contains name then none
        else groups? (name :: names) fuel (.ofMode mode) (g :: outer) cs
    | ')' :: cs =>
      match outer with
      | [] => none
      | o :: outer => groups? names fuel (o.add g.value) outer cs
    | '|' :: cs => groups? names fuel g.next outer cs
    -- A repetition matches the same texts whether it is lazy or not.
    | '*' :: cs =>
      (g.repeatLast? 0 none).bind fun g => groups? names fuel g outer (dropLazy g.mode cs)
    | '+' :: cs =>
      (g.repeatLast? 1 none).bind fun g => groups? names fuel g outer (dropLazy g.mode cs)
    | '?' :: cs =>
      (g.repeatLast? 0 (some 1)).bind fun g => groups? names fuel g outer (dropLazy g.mode cs)
    | '\x7B' :: cs => do
      let (least, most, cs) ← counts? g.mode cs
      let g ← g.repeatLast? least most
      groups? names fuel g outer (dropLazy g.mode cs)
    | '[' :: cs => do
      let (s, cs) ← bracketed? g.mode cs
      groups? names fuel (g.add (char s)) outer cs
    | '.' :: cs => do
      let s ← g.mode.dot?
      groups? names fuel (g.add (char s)) outer cs
    | '^' :: cs => groups? names fuel (g.add (look g.mode.lineStart g.mode.wordSet)) outer cs
    | '$' :: cs => groups? names fuel (g.add (look g.mode.lineFinish g.mode.wordSet)) outer cs
    | '\\' :: cs => do
      let (atom, cs) ← escape? g.mode cs
      groups? names fuel (← g.addAtom? atom) outer cs
    | c :: cs => do groups? names fuel (← g.addAtom? (.literal c)) outer cs

def maxSize : Nat := 300000

def parse? (text : String) : Option Pattern :=
  let cs := text.toList
  (groups? [] (cs.length + 1) (.ofMode {}) [] cs).filter (·.size ≤ maxSize)

end Runbook.Pattern
