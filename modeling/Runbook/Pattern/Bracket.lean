import Runbook.Pattern.Escape

/-!
This module contains the reading of bracketed sets of characters, which may hold each other and be
joined by set operations.
-/

namespace Runbook.Pattern

inductive SetOp where
  | inter
  | diff
  | symmDiff
deriving Repr, DecidableEq

def SetOp.apply : SetOp → CharSet → CharSet → CharSet
  | inter, a, b => .inter a b
  | diff, a, b => .diff a b
  | symmDiff, a, b => .symmDiff a b

structure Bracket where
  negated : Bool
  pending : Option (CharSet × SetOp)
  items : CharSet

namespace Bracket

def add (b : Bracket) (s : CharSet) : Bracket :=
  { b with items := .union b.items s }

def value (m : Mode) (b : Bracket) : CharSet :=
  match b.pending with
  | none => m.fold b.items
  | some (left, op) => op.apply left (m.fold b.items)

def operate (m : Mode) (op : SetOp) (b : Bracket) : Bracket :=
  { b with pending := some (b.value m, op), items := .none }

def close? (m : Mode) (b : Bracket) : Option CharSet :=
  if b.negated then m.compl? (b.value m) else some (b.value m)

/--
Read what may follow an opening bracket only: the sign of complement, and then hyphens or else a
closing bracket that stand for themselves.
-/
def open? (m : Mode) (cs : List Char) : Bracket × List Char :=
  let cs := m.skip cs
  let (negated, cs) := match cs with
    | '^' :: cs => (true, m.skip cs)
    | cs => (false, cs)
  let hyphens := cs.takeWhile (· == '-')
  let b : Bracket := ⟨negated, none, .none⟩
  if !hyphens.isEmpty then (b.add (.single '-'), m.skip (cs.drop hyphens.length))
  else
    match cs with
    | ']' :: cs => (b.add (.single ']'), m.skip cs)
    | cs => (b, cs)

end Bracket

def literal? (m : Mode) (c : Char) : Option Char :=
  if m.ascii && 0x80 ≤ c.toNat then none else some c

def member? (m : Mode) : List Char → Option (Atom × List Char)
  | [] => none
  | '\\' :: cs => escape? m cs
  | c :: cs => some (.literal c, cs)

def range? (m : Mode) (cs : List Char) : Option (CharSet × List Char) := do
  let (first, cs) ← member? m cs
  let cs := m.skip cs
  let isRange := match cs with
    | '-' :: rest =>
      match m.skip rest with
      -- Before these a hyphen stands for itself, or is part of an operator.
      | ']' :: _ | '-' :: _ => false
      | _ => true
    | _ => false
  if isRange then
    let (last, cs) ← member? m (m.skip (cs.drop 1))
    match first, last with
    | .literal a, .literal b =>
      let a ← literal? m a
      let b ← literal? m b
      if a ≤ b then return (.range a b, cs) else none
    | _, _ => none
  else
    match first with
    | .literal c => do return (.single (← literal? m c), cs)
    | .set s => return (s, cs)
    | .look _ => none

def named? (m : Mode) : List Char → Option (CharSet × List Char)
  | ':' :: cs => do
    let (negated, cs) := match cs with
      | '^' :: cs => (true, cs)
      | cs => (false, cs)
    let name := cs.takeWhile (· ≠ ':')
    match cs.drop name.length with
    | ':' :: ']' :: rest =>
      let s ← posixClass? (String.ofList name)
      if negated then return (← m.compl? s, rest) else return (s, rest)
    | _ => none
  | _ => none

def brackets? (m : Mode) : Nat → Bracket → List Bracket → List Char → Option (CharSet × List Char)
  | 0, _, _, _ => none
  | fuel + 1, b, outer, cs =>
    match m.skip cs with
    | [] => none
    | '[' :: cs =>
      -- What is not a named class opens a bracket inside.
      match named? m cs with
      | some (s, cs) => brackets? m fuel (b.add s) outer cs
      | none =>
        let (inner, cs) := Bracket.open? m cs
        brackets? m fuel inner (b :: outer) cs
    | ']' :: cs => do
      let s ← b.close? m
      match outer with
      | [] => return (s, cs)
      | b :: outer => brackets? m fuel (b.add s) outer cs
    | '&' :: '&' :: cs => brackets? m fuel (b.operate m .inter) outer cs
    | '-' :: '-' :: cs => brackets? m fuel (b.operate m .diff) outer cs
    | '~' :: '~' :: cs => brackets? m fuel (b.operate m .symmDiff) outer cs
    | cs => do
      let (s, cs) ← range? m cs
      brackets? m fuel (b.add s) outer cs

def bracketed? (m : Mode) (cs : List Char) : Option (CharSet × List Char) :=
  let (b, rest) := Bracket.open? m cs
  brackets? m (cs.length + 1) b [] rest

end Runbook.Pattern
