import Runbook.Number.Power
import Runbook.Text.Blank
import Runbook.Text.Digit

/-!
This module contains durations: numbers of nanoseconds, written as a sequence of numbers with units.
-/

namespace Runbook

structure Duration where
  nanos : Nat
deriving Repr, DecidableEq

namespace Duration

def second : Nat := 10 ^ 9

def ofSeconds (n : Nat) : Duration :=
  ⟨n * second⟩

def ofMillis (n : Nat) : Duration :=
  ⟨n * 10 ^ 6⟩

def seconds (d : Duration) : Nat :=
  d.nanos / second

def subsecond (d : Duration) : Nat :=
  d.nanos % second

/--
The nanoseconds in a unit. A month is a twelfth of a year of 365.25 days, less ten minutes.
-/
def unit? (name : String) : Option Nat :=
  match name with
  | "nanos" | "nsec" | "ns" => some 1
  | "micros" | "usec" | "us" | "µs" => some (10 ^ 3)
  | "millis" | "msec" | "ms" => some (10 ^ 6)
  | "seconds" | "second" | "secs" | "sec" | "s" => some second
  | "minutes" | "minute" | "mins" | "min" | "m" => some (60 * second)
  | "hours" | "hour" | "hrs" | "hr" | "h" => some (3600 * second)
  | "days" | "day" | "d" => some (86400 * second)
  | "weeks" | "week" | "wks" | "wk" | "w" => some (7 * 86400 * second)
  | "months" | "month" | "M" => some (2630016 * second)
  | "years" | "year" | "yrs" | "yr" | "y" => some (31557600 * second)
  | _ => none

/--
Counts of seconds, and counts of nanoseconds that are added at once, stay below this bound.
-/
def bound : Nat := 2 ^ 64

def isUnitChar (c : Char) : Bool :=
  c.isAlpha || c == 'µ'

def isNumberChar (c : Char) : Bool :=
  c.isDigit || Text.isBlank c

structure Term where
  whole : List Char
  fraction : List Char
  unit : Nat
deriving Repr, DecidableEq

def splitDigits (cs : List Char) : List Char × List Char :=
  ((cs.takeWhile isNumberChar).filter Char.isDigit, cs.dropWhile isNumberChar)

/--
Split off the digits behind a point. A point must have some.
-/
def splitFraction? : List Char → Option (List Char × List Char)
  | '.' :: cs => if (splitDigits cs).1.isEmpty then none else some (splitDigits cs)
  | cs => some ([], cs)

/--
Split off a number with its unit. Blanks may stand between digits.
-/
def splitTerm? (cs : List Char) : Option (Term × List Char) := do
  let (whole, cs) := splitDigits cs
  let (fraction, cs) ← splitFraction? cs
  let unit ← unit? (String.ofList (cs.takeWhile isUnitChar))
  let rest := cs.dropWhile isUnitChar
  if rest.head?.all isNumberChar then return ({ whole, fraction, unit }, rest) else none

/--
Add `numerator / denominator` units to `total`, counted in grains of `grain` nanoseconds. The share
has to come to a whole number of these.
-/
def addShare? (numerator denominator unit grain total : Nat) : Option Nat :=
  let count := numerator * (unit / grain)
  let amount := count / denominator * grain
  if count < bound ∧ denominator < bound ∧ count % denominator = 0
      ∧ total % second + amount < bound * grain ∧ (total + amount) / second < bound then
    some (total + amount)
  else
    none

/--
Add a number of units to `total`. Whole units of a second and more are counted in seconds, and so
are fractions of an hour and more.
-/
def Term.addTo? (t : Term) (total : Nat) : Option Nat := do
  let wholeGrain := if second ≤ t.unit then second else 1
  let total ← addShare? (Text.digitsValue 10 t.whole) 1 t.unit wholeGrain total
  let fractionGrain := if 3600 * second ≤ t.unit then second else 1
  addShare? (Text.digitsValue 10 t.fraction) (10 ^ t.fraction.length) t.unit fractionGrain total

def readSum? (total : Nat) (cs : List Char) : Option Nat :=
  match cs.dropWhile Text.isBlank with
  | [] => some total
  | c :: rest =>
    if !c.isDigit then none
    else
      match splitTerm? (c :: rest) with
      | some (t, rest) =>
        if _h : rest.length < cs.length then (t.addTo? total).bind fun total => readSum? total rest
        else none
      | none => none
termination_by cs.length

/--
The duration that a text stands for. The text `0` needs no unit.
-/
def parse? (s : String) : Option Duration :=
  if s = "0" then some ⟨0⟩
  else if Text.trim s = "" then none
  else (readSum? 0 s.toList).map Duration.mk

/--
A count of units with the part `rest` of the next one, where a unit has `unit` parts.
-/
def decimalText (whole rest unit : Nat) : String :=
  if rest = 0 then toString whole
  else
    let digits := (toString (unit + rest)).toList.drop 1
    toString whole ++ "."
      ++ String.ofList ((digits.reverse.dropWhile (· == '0')).reverse)

/--
The text in the largest of seconds, milli-, micro- and nanoseconds that is not longer.
-/
def text (d : Duration) : String :=
  if second ≤ d.nanos then decimalText d.seconds d.subsecond second ++ "s"
  else if 10 ^ 6 ≤ d.nanos then decimalText (d.nanos / 10 ^ 6) (d.nanos % 10 ^ 6) (10 ^ 6) ++ "ms"
  else if 10 ^ 3 ≤ d.nanos then decimalText (d.nanos / 10 ^ 3) (d.nanos % 10 ^ 3) (10 ^ 3) ++ "µs"
  else toString d.nanos ++ "ns"

end Duration

end Runbook
