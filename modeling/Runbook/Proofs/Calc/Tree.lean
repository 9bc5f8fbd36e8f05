import Runbook.Calc.Evaluate
import Runbook.Proofs.Calc.Literal

/-!
This module contains expression trees with their values, the ways in which a tree can be written,
and the one way that uses no more parentheses than it has to.
-/

namespace Runbook.Calc

inductive Lexeme where
  | literal (l : Literal)
  | bool (b : Bool)
  | op (s : Symbol)
  | lparen
  | rparen

namespace Lexeme

def chars : Lexeme → List Char
  | literal l => l.chars
  | bool b => if b then "true".toList else "false".toList
  | op (.binary o) => o.text.toList
  | op .bang => UnaryOp.not.text.toList
  | op .tilde => UnaryOp.tilde.text.toList
  | lparen => ['(']
  | rparen => [')']

def token : Lexeme → Token
  | literal l => l.token
  | bool b => .bool b
  | op s => .op s
  | lparen => .lparen
  | rparen => .rparen

def isParen : Lexeme → Bool
  | lparen | rparen => true
  | _ => false

end Lexeme

def Literal.value (l : Literal) : Value :=
  match l.number with
  | .inl n => .int n
  | .inr d => .float d

def UnaryOp.symbol : UnaryOp → Symbol
  | plus => .binary (.arithmetic .add)
  | minus => .binary (.arithmetic .sub)
  | not => .bang
  | caret => .binary (.bitwise .xor)
  | tilde => .tilde

inductive Tree where
  | literal (l : Literal)
  | bool (b : Bool)
  | unary (op : UnaryOp) (e : Tree)
  | binary (op : BinaryOp) (lhs rhs : Tree)

namespace Tree

/--
The value from the bottom up, left operands first. No operator is spared its right operand.
-/
def eval : Tree → Except Cause Value
  | literal l => pure l.value
  | bool b => pure (.bool b)
  | unary op e => do op.apply (← e.eval)
  | binary op lhs rhs => do
    let a ← lhs.eval
    let b ← rhs.eval
    op.apply a b

def outcome (e : Tree) : Except Cause Value := do
  (← e.eval).collapse

def operandLevel : Nat := 6

/--
The tree where operators of `level` or tighter are wanted. The right operand of an operator has to
bind tighter than the operator itself, since operators associate to the left.
-/
def print (level : Nat) : Tree → List Lexeme
  | literal l => [.literal l]
  | bool b => [.bool b]
  | unary op e => .op op.symbol :: e.print operandLevel
  | binary op lhs rhs =>
    let inner := lhs.print op.level ++ .op (.binary op) :: rhs.print (op.level + 1)
    if level ≤ op.level then inner else .lparen :: inner ++ [.rparen]

end Tree

/--
`Phrase level e ls` holds if `ls` is a way to write `e` where operators of `level` or tighter are
wanted. Parentheses may stand around any part.
-/
inductive Phrase : Nat → Tree → List Lexeme → Prop where
  | literal (l : Literal) : Phrase Tree.operandLevel (.literal l) [.literal l]
  | bool (b : Bool) : Phrase Tree.operandLevel (.bool b) [.bool b]
  | unary (op : UnaryOp) {e : Tree} {ls : List Lexeme} (h : Phrase Tree.operandLevel e ls)
      : Phrase Tree.operandLevel (.unary op e) (.op op.symbol :: ls)
  | parens {e : Tree} {ls : List Lexeme} (h : Phrase 1 e ls)
      : Phrase Tree.operandLevel e (.lparen :: ls ++ [.rparen])
  | binary (op : BinaryOp) {lhs rhs : Tree} {ls rs : List Lexeme} (hl : Phrase op.level lhs ls)
      (hr : Phrase (op.level + 1) rhs rs)
      : Phrase op.level (.binary op lhs rhs) (ls ++ .op (.binary op) :: rs)
  | looser {level : Nat} {e : Tree} {ls : List Lexeme} (hlevel : level < Tree.operandLevel)
      (h : Phrase (level + 1) e ls) : Phrase level e ls

end Runbook.Calc
