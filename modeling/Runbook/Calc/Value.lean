import Runbook.Calc.Scan
import Runbook.Number.Bitwise

/-!
This module contains the values of arithmetic expressions and what the operators do to them.
-/

namespace Runbook.Calc

open Number

inductive Value where
  | bool (b : Bool)
  | int (n : Int)
  | float (d : Decimal)
deriving Repr, DecidableEq

namespace Value

def kind : Value → Kind
  | bool _ => .boolean
  | int _ => .integer
  | float _ => .float

def text : Value → String
  | bool b => toString b
  | int n => toString n
  | float d => d.text

def decimal? : Value → Option Decimal
  | bool _ => none
  | int n => some (.ofInt n)
  | float d => some d

/--
A whole float counts as an integer, if it is not written with too large an exponent.
-/
def collapse : Value → Except Cause Value
  | float d =>
    if d.isWhole then
      if d.scale < -maxExponent then throw (.decimalExponent (toString (-d.scale)))
      else pure (int d.toInt)
    else pure (float d)
  | v => pure v

end Value

def UnaryOp.apply (op : UnaryOp) (v : Value) : Except Cause Value :=
  match op, v with
  | .plus, .int n => pure (.int n)
  | .plus, .float d => pure (.float d)
  | .minus, .int n => pure (.int (-n))
  | .minus, .float d => pure (.float d.neg)
  | .not, .bool b => pure (.bool (!b))
  | .caret, .int n => pure (.int (bitNot n))
  | .tilde, .int n => pure (.int (bitNot n))
  | op, v => throw (.unaryOperand op v.kind)

def Connective.apply : Connective → Bool → Bool → Bool
  | and, a, b => a && b
  | or, a, b => a || b

def Comparison.applyBool? : Comparison → Bool → Bool → Option Bool
  | eq, a, b => some (a == b)
  | ne, a, b => some (a != b)
  | _, _, _ => none

def Comparison.applyDecimal : Comparison → Decimal → Decimal → Bool
  | eq, a, b => a.sameValue b
  | ne, a, b => !a.sameValue b
  | lt, a, b => a.lt b
  | le, a, b => !b.lt a
  | gt, a, b => b.lt a
  | ge, a, b => !a.lt b

/--
A quotient of integers is cut off toward zero.
-/
def Arithmetic.applyInt : Arithmetic → Int → Int → Except Cause Int
  | add, a, b => pure (a + b)
  | sub, a, b => pure (a - b)
  | mul, a, b => pure (a * b)
  | div, a, b => if b = 0 then throw .divisionByZero else pure (a.tdiv b)

def Arithmetic.applyDecimal : Arithmetic → Decimal → Decimal → Except Cause Decimal
  | add, a, b => pure (a.add b)
  | sub, a, b => pure (a.sub b)
  | mul, a, b => pure (a.mul b)
  | div, a, b => if b.isZero then throw .divisionByZero else pure (a.div b)

def shiftCount (b : Int) : Except Cause Nat :=
  if b < 0 then throw (.negativeShift b)
  else if maxShift < b.toNat then throw (.largeShift b)
  else pure b.toNat

def Bitwise.apply : Bitwise → Int → Int → Except Cause Int
  | rem, a, b => if b = 0 then throw .divisionByZero else pure (a.tmod b)
  | and, a, b => pure (bitAnd a b)
  | or, a, b => pure (bitOr a b)
  | xor, a, b => pure (bitXor a b)
  | andNot, a, b => pure (bitAnd a (bitNot b))
  | shl, a, b => return shiftLeft a (← shiftCount b)
  | shr, a, b => return shiftRight a (← shiftCount b)

def BinaryOp.apply (op : BinaryOp) (a b : Value) : Except Cause Value :=
  let mismatch : Except Cause Value := throw (.binaryOperands op a.kind b.kind)
  match op with
  | .connective c =>
    match a, b with
    | .bool a, .bool b => pure (.bool (c.apply a b))
    | _, _ => mismatch
  | .comparison c =>
    match a, b with
    | .bool a, .bool b =>
      match c.applyBool? a b with
      | some r => pure (.bool r)
      | none => mismatch
    | a, b =>
      match a.decimal?, b.decimal? with
      | some a, some b => pure (.bool (c.applyDecimal a b))
      | _, _ => mismatch
  | .arithmetic c =>
    match a, b with
    | .int a, .int b => (c.applyInt a b).map .int
    | a, b =>
      match a.decimal?, b.decimal? with
      | some a, some b => (c.applyDecimal a b).map .float
      | _, _ => mismatch
  | .bitwise c => do
    match ← a.collapse, ← b.collapse with
    | .int a, .int b => (c.apply a b).map .int
    | _, _ => mismatch

end Runbook.Calc
