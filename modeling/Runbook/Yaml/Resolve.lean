import Runbook.Number.Binary64
import Runbook.Yaml.Node

/-!
This module contains what scalars stand for: nothing, a truth value, a number or a text.
-/

namespace Runbook.Yaml

inductive Resolved where
  | null
  | bool (b : Bool)
  | int (n : Int)
  | float (x : Number.Binary64)
  | text (s : String)
deriving Repr, DecidableEq

def isNull (s : String) : Bool :=
  ["null", "Null", "NULL", "~"].contains s

def bool? (s : String) : Option Bool :=
  if ["true", "True", "TRUE"].contains s then some true
  else if ["false", "False", "FALSE"].contains s then some false
  else none

def digits? (radix : Nat) (cs : List Char) : Option Nat :=
  if !cs.isEmpty && cs.all (fun c => Text.isHexDigit c && Text.digitValue c < radix) then
    some (Text.digitsValue radix cs)
  else none

/--
A numeral without a sign: decimal, or behind the mark of another radix. A decimal numeral of several
digits does not start with a zero.
-/
def numeral? (cs : List Char) : Option Nat :=
  match cs with
  | '0' :: 'x' :: ds => digits? 16 ds
  | '0' :: 'o' :: ds => digits? 8 ds
  | '0' :: 'b' :: ds => digits? 2 ds
  | '0' :: _ :: _ => none
  | ds => digits? 10 ds

/--
An integer. What takes more than 128 bits is not read as one.
-/
def int? (s : String) : Option Int :=
  let n := match s.toList with
    | '-' :: cs => (numeral? cs).map fun n => -Int.ofNat n
    | '+' :: cs => (numeral? cs).map Int.ofNat
    | cs => (numeral? cs).map Int.ofNat
  n.filter fun n => -2 ^ 127 ≤ n && n < 2 ^ 128

def isWide (n : Int) : Bool :=
  n < -2 ^ 63 || 2 ^ 64 ≤ n

def decimal? (negative : Bool) (cs : List Char) : Option Number.Binary64 :=
  let whole := cs.takeWhile Char.isDigit
  let cs := cs.drop whole.length
  let (fraction, cs) := match cs with
    | '.' :: rest => (rest.takeWhile Char.isDigit, rest.dropWhile Char.isDigit)
    | cs => ([], cs)
  let exponent : Option Int := match cs with
    | [] => some 0
    | e :: rest =>
      if e ≠ 'e' ∧ e ≠ 'E' then none
      else
        match rest with
        | '-' :: ds => (digits? 10 ds).map fun n => -Int.ofNat n
        | '+' :: ds => (digits? 10 ds).map Int.ofNat
        | ds => (digits? 10 ds).map Int.ofNat
  if whole.isEmpty && fraction.isEmpty then none
  else
    exponent.map fun e =>
      .ofDigits negative (Text.digitsValue 10 (whole ++ fraction)) (e - fraction.length)

/--
A floating point number. One that is written in digits has to be finite.
-/
def float? (s : String) : Option Number.Binary64 :=
  let finite (x : Option Number.Binary64) : Option Number.Binary64 := x.filter (·.isFinite)
  match s.toList with
  | '-' :: cs =>
    if [".inf", ".Inf", ".INF"].contains (String.ofList cs) then some (.infinity true)
    else finite (decimal? true cs)
  | '+' :: cs =>
    if [".inf", ".Inf", ".INF"].contains (String.ofList cs) then some (.infinity false)
    else finite (decimal? false cs)
  | cs =>
    if [".inf", ".Inf", ".INF"].contains s then some (.infinity false)
    else if [".nan", ".NaN", ".NAN"].contains s then some .nan
    else finite (decimal? false cs)

/--
Whether a text is a run of digits with a zero in front, which makes it no number.
-/
def isPadded (s : String) : Bool :=
  let cs := match s.toList with
    | '-' :: cs | '+' :: cs => cs
    | cs => cs
  match cs with
  | '0' :: c :: cs => (c :: cs).all Char.isDigit
  | _ => false

/--
What a plain scalar without a tag stands for. Integers have at most 64 bits.
-/
def resolvePlain? (s : String) : Option Resolved :=
  if s.isEmpty || isNull s then some .null
  else
    match bool? s, int? s with
    | some b, _ => some (.bool b)
    | none, some n => if isWide n then none else some (.int n)
    | none, none =>
      match if isPadded s then none else float? s with
      | some x => some (.float x)
      | none => some (.text s)

def standardTag (name : String) : String :=
  "tag:yaml.org,2002:" ++ name

def isLocalTag (tag : Option String) : Bool :=
  tag.any fun t => t.toList.head? == some '!'

/--
What a scalar stands for. Tags of an application have no meaning here.
-/
def resolve? (text : String) (style : Style) (tag : Option String) : Option Resolved :=
  match tag with
  | none => if style = .plain then resolvePlain? text else some (.text text)
  | some t =>
    if isLocalTag tag then none
    else if t = standardTag "bool" then (bool? text).map .bool
    else if t = standardTag "int" then
      (int? text).bind fun n => if isWide n then none else some (.int n)
    else if t = standardTag "float" then (float? text).map .float
    else if t = standardTag "null" then if isNull text then some .null else none
    else some (.text text)

end Runbook.Yaml
