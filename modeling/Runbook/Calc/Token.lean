import Runbook.Number.Decimal

/-!
This module contains the tokens of arithmetic expressions and the operators they stand for.
-/

namespace Runbook.Calc

open Number

inductive Kind where
  | boolean
  | integer
  | float
deriving Repr, DecidableEq

def Kind.text : Kind → String
  | boolean => "boolean"
  | integer => "integer"
  | float => "float"

inductive Connective where
  | and
  | or
deriving Repr, DecidableEq

inductive Comparison where
  | eq
  | ne
  | lt
  | le
  | gt
  | ge
deriving Repr, DecidableEq

inductive Arithmetic where
  | add
  | sub
  | mul
  | div
deriving Repr, DecidableEq

/--
Operators that are defined on whole numbers only.
-/
inductive Bitwise where
  | rem
  | and
  | or
  | xor
  | andNot
  | shl
  | shr
deriving Repr, DecidableEq

inductive BinaryOp where
  | connective (op : Connective)
  | comparison (op : Comparison)
  | arithmetic (op : Arithmetic)
  | bitwise (op : Bitwise)
deriving Repr, DecidableEq

inductive UnaryOp where
  | plus
  | minus
  | not
  | caret
  | tilde
deriving Repr, DecidableEq

namespace BinaryOp

/--
Operators of a higher level bind tighter; all associate to the left.
-/
def level : BinaryOp → Nat
  | connective .or => 1
  | connective .and => 2
  | comparison _ => 3
  | arithmetic .add | arithmetic .sub | bitwise .or | bitwise .xor => 4
  | arithmetic .mul | arithmetic .div => 5
  | bitwise .rem | bitwise .shl | bitwise .shr | bitwise .and | bitwise .andNot => 5

theorem level_pos (op : BinaryOp) : 1 ≤ op.level := by
  rcases op with (_ | _) | _ | (_ | _ | _ | _) | (_ | _ | _ | _ | _ | _ | _) <;> simp [level]

theorem level_le (op : BinaryOp) : op.level ≤ 5 := by
  rcases op with (_ | _) | _ | (_ | _ | _ | _) | (_ | _ | _ | _ | _ | _ | _) <;> simp [level]

def text : BinaryOp → String
  | connective .and => "&&"
  | connective .or => "||"
  | comparison .eq => "=="
  | comparison .ne => "!="
  | comparison .lt => "<"
  | comparison .le => "<="
  | comparison .gt => ">"
  | comparison .ge => ">="
  | arithmetic .add => "+"
  | arithmetic .sub => "-"
  | arithmetic .mul => "*"
  | arithmetic .div => "/"
  | bitwise .rem => "%"
  | bitwise .and => "&"
  | bitwise .or => "|"
  | bitwise .xor => "^"
  | bitwise .andNot => "&^"
  | bitwise .shl => "<<"
  | bitwise .shr => ">>"

end BinaryOp

def UnaryOp.text : UnaryOp → String
  | plus => "+"
  | minus => "-"
  | not => "!"
  | caret => "^"
  | tilde => "~"

/--
An operator as written. Three of them are unary and binary; two are unary only.
-/
inductive Symbol where
  | binary (op : BinaryOp)
  | bang
  | tilde
deriving Repr, DecidableEq

namespace Symbol

def unary? : Symbol → Option UnaryOp
  | binary (.arithmetic .add) => some .plus
  | binary (.arithmetic .sub) => some .minus
  | binary (.bitwise .xor) => some .caret
  | bang => some .not
  | tilde => some .tilde
  | _ => none

def name : Symbol → String
  | bang => "Not"
  | tilde => "Tilde"
  | binary op =>
    match op with
    | .connective .and => "LogicalAnd"
    | .connective .or => "LogicalOr"
    | .comparison .eq => "Eq"
    | .comparison .ne => "Ne"
    | .comparison .lt => "Lt"
    | .comparison .le => "Le"
    | .comparison .gt => "Gt"
    | .comparison .ge => "Ge"
    | .arithmetic .add => "Add"
    | .arithmetic .sub => "Sub"
    | .arithmetic .mul => "Mul"
    | .arithmetic .div => "Div"
    | .bitwise .rem => "Rem"
    | .bitwise .and => "And"
    | .bitwise .or => "Or"
    | .bitwise .xor => "Xor"
    | .bitwise .andNot => "AndNot"
    | .bitwise .shl => "Shl"
    | .bitwise .shr => "Shr"

end Symbol

inductive Token where
  | int (n : Nat)
  | float (d : Decimal)
  | bool (b : Bool)
  | op (s : Symbol)
  | lparen
  | rparen
deriving Repr, DecidableEq

def Token.text : Token → String
  | int n => "Int(" ++ toString n ++ ")"
  | float d => "Float(BigDecimal(\"" ++ d.text ++ "\"))"
  | bool b => "Bool(" ++ toString b ++ ")"
  | op s => "Op(" ++ s.name ++ ")"
  | lparen => "LParen"
  | rparen => "RParen"

end Runbook.Calc
