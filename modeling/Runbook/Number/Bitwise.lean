import Runbook.Number.Power

/-!
This module contains the bitwise operations on integers in two's complement of unbounded width.
-/

namespace Runbook.Number

def clearBits (m n : Nat) : Nat :=
  m ^^^ (m &&& n)

@[simp]
theorem testBit_clearBits (m n i : Nat) :
    (clearBits m n).testBit i = (m.testBit i && !n.testBit i) := by
  simp only [clearBits, Nat.testBit_xor, Nat.testBit_and]
  cases m.testBit i <;> simp

def bitAnd : Int → Int → Int
  | .ofNat m, .ofNat n => .ofNat (m &&& n)
  | .ofNat m, .negSucc n => .ofNat (clearBits m n)
  | .negSucc m, .ofNat n => .ofNat (clearBits n m)
  | .negSucc m, .negSucc n => .negSucc (m ||| n)

def bitOr : Int → Int → Int
  | .ofNat m, .ofNat n => .ofNat (m ||| n)
  | .ofNat m, .negSucc n => .negSucc (clearBits n m)
  | .negSucc m, .ofNat n => .negSucc (clearBits m n)
  | .negSucc m, .negSucc n => .negSucc (m &&& n)

def bitXor : Int → Int → Int
  | .ofNat m, .ofNat n => .ofNat (m ^^^ n)
  | .ofNat m, .negSucc n => .negSucc (m ^^^ n)
  | .negSucc m, .ofNat n => .negSucc (m ^^^ n)
  | .negSucc m, .negSucc n => .ofNat (m ^^^ n)

def bitNot : Int → Int
  | .ofNat m => .negSucc m
  | .negSucc m => .ofNat m

theorem bitNot_eq (a : Int) : bitNot a = -a - 1 := by
  cases a with
  | ofNat m => simp only [bitNot, Int.ofNat_eq_natCast]; omega
  | negSucc m => simp only [bitNot, Int.ofNat_eq_natCast]; omega

def shiftLeft (a : Int) (count : Nat) : Int :=
  a * 2 ^ count

/--
Divide by a power of two, toward negative infinity.
-/
def shiftRight (a : Int) (count : Nat) : Int :=
  a.fdiv (2 ^ count)

end Runbook.Number
