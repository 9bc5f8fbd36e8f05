import Runbook.Number.Decimal

/-!
This module contains the floating point numbers of 64 bits, by value: rounding to the nearest one,
and the shortest decimal text that rounds back.
-/

namespace Runbook.Number

/--
A finite number is `significand · 2 ^ exponent`, the significand below `2 ^ 53` and the exponent at
least `-1074`.
-/
inductive Binary64 where
  | nan
  | infinity (negative : Bool)
  | finite (negative : Bool) (significand : Nat) (exponent : Int)
deriving Repr, DecidableEq

namespace Binary64

def zero (negative : Bool) : Binary64 :=
  finite negative 0 (-1074)

/--
The quotient of `num` and `den · 2 ^ exponent`, as a numerator and a denominator.
-/
def scaled (num den : Nat) (exponent : Int) : Nat × Nat :=
  if 0 ≤ exponent then (num, den * 2 ^ exponent.toNat) else (num * 2 ^ (-exponent).toNat, den)

/--
Divide to the nearest whole number, a half to the even neighbour.
-/
def divRound (num den : Nat) : Nat :=
  let q := num / den
  let rest := 2 * (num % den)
  if rest < den then q
  else if den < rest then q + 1
  else if q % 2 = 0 then q else q + 1

def ofRatio (negative : Bool) (num den : Nat) : Binary64 :=
  if num = 0 then zero negative
  else
    let estimate : Int := num.log2 - den.log2 - 52
    let exponent :=
      let (n, d) := scaled num den estimate
      if n / d < 2 ^ 52 then estimate - 1 else estimate
    -- Subnormal numbers share the least exponent.
    let exponent := max exponent (-1074)
    let (n, d) := scaled num den exponent
    let significand := divRound n d
    -- Rounding up may have brought one more bit.
    let (significand, exponent) :=
      if significand = 2 ^ 53 then (2 ^ 52, exponent + 1) else (significand, exponent)
    if 971 < exponent then infinity negative else finite negative significand exponent

def ofDigits (negative : Bool) (digits : Nat) (exponent : Int) : Binary64 :=
  let top : Int := Decimal.digitCount digits + exponent
  if digits = 0 ∨ top < -330 then zero negative
  else if 310 < top then infinity negative
  else if 0 ≤ exponent then ofRatio negative (digits * 10 ^ exponent.toNat) 1
  else ofRatio negative digits (10 ^ (-exponent).toNat)

def isFinite : Binary64 → Bool
  | finite _ _ _ => true
  | _ => false

/--
The least `k` for which `num · 10 ^ k` is not below `den`, searched up to `fuel`.
-/
def zerosBehindPoint (num den : Nat) : Nat → Nat
  | 0 => 0
  | fuel + 1 => if den ≤ num then 0 else zerosBehindPoint (10 * num) den fuel + 1

def dropZeros (digits : Nat) (exponent : Int) : Nat → Nat × Int
  | 0 => (digits, exponent)
  | fuel + 1 =>
    if digits % 10 = 0 ∧ digits ≠ 0 then dropZeros (digits / 10) (exponent + 1) fuel
    else (digits, exponent)

/--
The fewest digits, with their power of ten, that lie strictly between the midpoints to both
neighbours of `significand · 2 ^ exponent`, or on a midpoint if the significand is even.
-/
def shortest (significand : Nat) (exponent : Int) : Nat × Int :=
  let up : Nat := 2 ^ exponent.toNat
  let den : Nat := 4 * 2 ^ (-exponent).toNat
  let num := 4 * significand * up
  -- Below a power of two the neighbour is half as far away as above.
  let low := (4 * significand - if significand = 2 ^ 52 ∧ -1074 < exponent then 1 else 2) * up
  let high := (4 * significand + 2) * up
  let even := significand % 2 = 0
  let top : Int :=
    if den ≤ num then Decimal.digitCount (num / den) else 1 - zerosBehindPoint num den 400
  let inside (n d : Nat) : Bool :=
    if even then low * d ≤ n * den && n * den ≤ high * d
    else low * d < n * den && n * den < high * d
  let rec search (count : Nat) : Nat → Nat × Int
    | 0 => (0, 0)
    | fuel + 1 =>
      let grid := top - count
      let up10 := 10 ^ grid.toNat
      let down10 := 10 ^ (-grid).toNat
      let below := num * down10 / (den * up10)
      let lowIn := inside (below * up10) down10
      let highIn := inside ((below + 1) * up10) down10
      if lowIn && highIn then
        -- Of two candidates the nearer one is taken, and of two as near the even one.
        let lowGap := num * down10 - below * up10 * den
        let highGap := (below + 1) * up10 * den - num * down10
        if lowGap < highGap || (lowGap == highGap && below % 2 == 0) then (below, grid)
        else (below + 1, grid)
      else if lowIn then (below, grid)
      else if highIn then (below + 1, grid)
      else if fuel = 0 then (below, grid)
      else search (count + 1) fuel
  let (digits, grid) := search 1 17
  dropZeros digits grid 20

def text : Binary64 → String
  | nan => "NaN"
  | infinity negative => if negative then "-inf" else "inf"
  | finite negative significand exponent =>
    let sign := if negative then "-" else ""
    if significand = 0 then sign ++ "0"
    else
      let (digits, power) := shortest significand exponent
      sign ++ Decimal.text ⟨digits, -power⟩

end Binary64

end Runbook.Number
