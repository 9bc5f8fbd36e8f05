import Runbook.Calc.Value

/-!
This module contains the evaluation of expression texts. Operators are applied as soon as their
operands are read, so that of two faults the one further left is reported.
-/

namespace Runbook.Calc

abbrev Read (ts : List Token) := Value × { rest : List Token // rest.length < ts.length }

mutual

def operand (ts : List Token) : Except Cause (Read ts) :=
  match ts with
  | [] => throw .endOfText
  | .int n :: rest => pure (.int n, ⟨rest, by simp⟩)
  | .float d :: rest => pure (.float d, ⟨rest, by simp⟩)
  | .bool b :: rest => pure (.bool b, ⟨rest, by simp⟩)
  | .lparen :: rest =>
    match chain 1 rest with
    | .error e => throw e
    | .ok (v, ⟨rest', h⟩) =>
      match rest', h with
      | .rparen :: rest'', h => pure (v, ⟨rest'', by simp_all; omega⟩)
      | _, _ => throw .unclosed
  | .op s :: rest =>
    match s.unary? with
    | none => throw (.token (.op s))
    | some op =>
      match operand rest with
      | .error e => throw e
      | .ok (v, ⟨rest', h⟩) => do return (← op.apply v, ⟨rest', by simp; omega⟩)
  | .rparen :: _ => throw (.token .rparen)
termination_by (ts.length, 0)

def chain (level : Nat) (ts : List Token) : Except Cause (Read ts) :=
  match operand ts with
  | .error e => throw e
  | .ok (v, ⟨rest, h⟩) =>
    match climb level v rest with
    | .error e => throw e
    | .ok (v, ⟨rest', h'⟩) => pure (v, ⟨rest', by omega⟩)
termination_by (ts.length, 1)

def climb (level : Nat) (lhs : Value) (ts : List Token) :
    Except Cause (Value × { rest : List Token // rest.length ≤ ts.length }) :=
  match ts with
  | .op (.binary op) :: rest =>
    if level ≤ op.level then
      match chain (op.level + 1) rest with
      | .error e => throw e
      | .ok (rhs, ⟨rest', h⟩) =>
        match op.apply lhs rhs with
        | .error e => throw e
        | .ok v =>
          match climb level v rest' with
          | .error e => throw e
          | .ok (v, ⟨rest'', h'⟩) => pure (v, ⟨rest'', by simp; omega⟩)
    else
      pure (lhs, ⟨.op (.binary op) :: rest, Nat.le_refl _⟩)
  | ts => pure (lhs, ⟨ts, Nat.le_refl _⟩)
termination_by (ts.length, 0)

end

def valueOf (ts : List Token) : Except Cause Value := do
  let (v, ⟨rest, _⟩) ← chain 1 ts
  match rest with
  | [] => v.collapse
  | t :: _ => throw (.trailing t)

def wrongKind (text : String) (v : Value) (expected : List Kind) : Error :=
  .ofNote .kindMismatch ("'" ++ text ++ "' evaluates to " ++ v.kind.text ++ ", expected "
    ++ " or ".intercalate (expected.map Kind.text))

/--
The value of an expression text. If `expected` names any kinds, the value must be of one of them.
-/
def evaluate (text : String) (expected : List Kind) : Except Error Value :=
  let within (c : Cause) : Error := c.report.attach ("in expression '" ++ text ++ "'")
  match tokens text with
  | .error c => throw (within c)
  -- A note would show an empty text.
  | .ok [] => throw (Cause.report .emptyText)
  | .ok ts =>
    match valueOf ts with
    | .error c => throw (within c)
    | .ok v =>
      if expected.isEmpty || expected.contains v.kind then pure v
      else throw (wrongKind text v expected)

def evaluateInt (text : String) : Except Error Int := do
  match ← evaluate text [.integer] with
  | .int n => pure n
  | v => throw (wrongKind text v [.integer])

def evaluateBool (text : String) : Except Error Bool := do
  match ← evaluate text [.boolean] with
  | .bool b => pure b
  | v => throw (wrongKind text v [.boolean])

/--
Whether `text` has only characters that an arithmetic expression may use.
-/
def isArithmetic (text : List Char) : Bool :=
  text.all fun c => Text.isHexDigit c || "+-*/.%&^()<>= ~|xXp".toList.contains c

end Runbook.Calc
