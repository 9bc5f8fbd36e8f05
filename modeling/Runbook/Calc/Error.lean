import Runbook.Calc.Token
import Runbook.Report

/-!
This module contains the failures of arithmetic expressions.
-/

namespace Runbook.Calc

inductive ErrorKind where
  | malformed
  | kindMismatch
  | divisionByZero
  | unsupported
deriving Repr, DecidableEq

abbrev Error := Report ErrorKind

inductive Cause where
  | identifier (word : String)
  | character (c : Char) (position : Nat)
  | exponentWithoutDigits
  | decimalExponent (exponent : String)
  | hexWithoutDigits
  | hexExponentWithoutDigits
  | hexFloatWithoutExponent
  | binaryExponent (exponent : String)
  | emptyText
  | trailing (t : Token)
  | unclosed
  | token (t : Token)
  | endOfText
  | binaryOperands (op : BinaryOp) (lhs rhs : Kind)
  | unaryOperand (op : UnaryOp) (operand : Kind)
  | divisionByZero
  | negativeShift (count : Int)
  | largeShift (count : Int)
deriving Repr, DecidableEq

namespace Cause

def kind : Cause → ErrorKind
  | identifier _ | character _ _ | exponentWithoutDigits | hexWithoutDigits
  | hexExponentWithoutDigits | hexFloatWithoutExponent | emptyText | trailing _ | unclosed
  | token _ | endOfText => .malformed
  | decimalExponent _ | binaryExponent _ | negativeShift _ | largeShift _ => .unsupported
  | binaryOperands _ _ _ | unaryOperand _ _ => .kindMismatch
  | divisionByZero => .divisionByZero

def note? : Cause → Option String
  | identifier word => some ("unexpected identifier '" ++ word ++ "'")
  | character c position =>
    some ("unexpected character '" ++ c.toString ++ "' at " ++ toString position)
  | exponentWithoutDigits => some "exponent has no digits"
  | decimalExponent exponent => some ("decimal exponent " ++ exponent ++ " is out of range")
  | hexWithoutDigits => some "hex literal has no digits"
  | hexExponentWithoutDigits => some "hex float exponent has no digits"
  | hexFloatWithoutExponent => some "hex float literal requires a 'p' exponent"
  | binaryExponent exponent => some ("binary exponent " ++ exponent ++ " is out of range")
  | emptyText => some "empty expression"
  | trailing t => some ("unexpected trailing token " ++ t.text)
  | unclosed => some "missing ')'"
  | token t => some ("unexpected token " ++ t.text)
  | endOfText => some "unexpected end of expression"
  | binaryOperands op lhs rhs =>
    some ("operator '" ++ op.text ++ "' not defined on " ++ lhs.text ++ " and " ++ rhs.text)
  | unaryOperand op operand =>
    some ("unary '" ++ op.text ++ "' not defined on " ++ operand.text)
  | divisionByZero => none
  | negativeShift count => some ("negative shift count " ++ toString count)
  | largeShift count => some ("shift count " ++ toString count ++ " too large")

def report (c : Cause) : Error :=
  { kind := c.kind, notes := c.note?.toList }

end Cause

end Runbook.Calc
