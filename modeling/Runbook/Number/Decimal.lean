import Runbook.Number.Power

/-!
This module contains decimal numbers of any precision, with the scale they were written in.
-/

namespace Runbook.Number

/--
The number `digits · 10 ^ (-scale)`. Two decimals of one value may differ in scale.
-/
structure Decimal where
  digits : Int
  scale : Int
deriving Repr, DecidableEq, Inhabited

namespace Decimal

def ofInt (n : Int) : Decimal :=
  ⟨n, 0⟩

def digitsAt (d : Decimal) (scale : Int) : Int :=
  d.digits * 10 ^ (scale - d.scale).toNat

def neg (d : Decimal) : Decimal :=
  ⟨-d.digits, d.scale⟩

def add (a b : Decimal) : Decimal :=
  let scale := max a.scale b.scale
  ⟨a.digitsAt scale + b.digitsAt scale, scale⟩

def sub (a b : Decimal) : Decimal :=
  let scale := max a.scale b.scale
  ⟨a.digitsAt scale - b.digitsAt scale, scale⟩

def sameValue (a b : Decimal) : Bool :=
  let scale := max a.scale b.scale
  a.digitsAt scale == b.digitsAt scale

def lt (a b : Decimal) : Bool :=
  let scale := max a.scale b.scale
  a.digitsAt scale < b.digitsAt scale

def isZero (d : Decimal) : Bool :=
  d.digits == 0

def isOne (d : Decimal) : Bool :=
  d.sameValue ⟨1, 0⟩

def mul (a b : Decimal) : Decimal :=
  if a.isOne then b
  else if b.isOne then a
  else ⟨a.digits * b.digits, a.scale + b.scale⟩

/--
The number of decimal digits of `n`, one for zero.
-/
def digitCount (n : Nat) : Nat :=
  if n < 10 then 1 else digitCount (n / 10) + 1

/--
The least `num · 10 ^ k` that is not below `den`, with `scale + k`.
-/
def raise (num den : Nat) (scale : Int) : Nat × Int :=
  if h : 0 < num ∧ num < den then raise (10 * num) den (scale + 1) else (num, scale)
termination_by den - num
decreasing_by omega

/--
Append up to `places` digits of `rest / den` to `quotient`; of the result's `(quotient, scale,
rest)` the rest is that of the next digit, already multiplied by ten.
-/
def longDivide (den : Nat) : Nat → Nat → Int → Nat → Nat × Int × Nat
  | 0, quotient, scale, rest => (quotient, scale, rest)
  | places + 1, quotient, scale, rest =>
    if rest = 0 then (quotient, scale, rest)
    else longDivide den places (10 * quotient + rest / den) (scale + 1) (10 * (rest % den))

def precision : Nat := 100

/--
The quotient of two magnitudes; a rest beyond the last digit rounds half up.
-/
def divideNat (num den : Nat) (scale : Int) : Nat × Int :=
  let (num, scale) := raise num den scale
  let quotient := num / den
  let rest := num % den
  if rest = 0 then (quotient, scale)
  else
    let (quotient, scale, rest) :=
      longDivide den (precision - digitCount quotient) quotient scale (10 * rest)
    (if 5 ≤ rest / den then quotient + 1 else quotient, scale)

/--
A dividend of zero and any dividend over one are left as they were written.
-/
def div (a b : Decimal) : Decimal :=
  if a.isZero || b.isOne then a
  else if a.digits == b.digits then ⟨1, a.scale - b.scale⟩
  else
    let (quotient, scale) := divideNat a.digits.natAbs b.digits.natAbs (a.scale - b.scale)
    ⟨a.digits.sign * b.digits.sign * quotient, scale⟩

def isWhole (d : Decimal) : Bool :=
  d.scale ≤ 0 || d.digits % 10 ^ d.scale.toNat == 0

def toInt (d : Decimal) : Int :=
  if d.scale ≤ 0 then d.digits * 10 ^ (-d.scale).toNat else d.digits / 10 ^ d.scale.toNat

/--
Positional text with exactly `scale` digits behind the point, if the scale is positive.
-/
def text (d : Decimal) : String :=
  let digits := (toString d.digits.natAbs).toList
  let sign := if d.digits < 0 then ['-'] else []
  let body :=
    if d.scale ≤ 0 then digits ++ List.replicate (-d.scale).toNat '0'
    else
      let places := d.scale.toNat
      if digits.length ≤ places then
        '0' :: '.' :: (List.replicate (places - digits.length) '0' ++ digits)
      else
        digits.take (digits.length - places) ++ '.' :: digits.drop (digits.length - places)
  String.ofList (sign ++ body)

end Decimal

end Runbook.Number
