import Runbook.Json.Basic
import Runbook.Text.Digit

/-!
This module contains the reading of JSON texts.
-/

namespace Runbook.Json

open Number Text

abbrev Read (α : Type) (cs : List Char) := α × { rest : List Char // rest.length < cs.length }

namespace Read

variable {α β : Type} {cs cs' : List Char}

def map (f : α → β) (r : Read α cs) : Read β cs :=
  (f r.1, r.2)

def widen (h : cs'.length ≤ cs.length) (r : Read α cs') : Read α cs :=
  (r.1, ⟨r.2.1, Nat.lt_of_lt_of_le r.2.2 h⟩)

end Read

def isSpace (c : Char) : Bool :=
  c == ' ' || c == '\t' || c == '\n' || c == '\r'

def skipSpace (cs : List Char) : List Char :=
  cs.dropWhile isSpace

theorem skipSpace_length (cs : List Char) : (skipSpace cs).length ≤ cs.length :=
  (List.dropWhile_suffix isSpace).length_le

theorem skipSpace_cons_length {cs rest : List Char} {c : Char} (h : skipSpace cs = c :: rest) :
    rest.length < cs.length := by
  have hs := skipSpace_length cs
  rw [h, List.length_cons] at hs
  exact hs

def unit16 (a b c d : Char) : Option Nat :=
  if [a, b, c, d].all isHexDigit then some (digitsValue 16 [a, b, c, d]) else none

def stringBody (cs : List Char) : Option (Read (List Char) cs) :=
  match cs with
  | [] => none
  | '"' :: rest => some ([], ⟨rest, Nat.lt_succ_self _⟩)
  | '\\' :: 'u' :: a :: b :: c :: d :: rest =>
    match unit16 a b c d with
    | none => none
    | some high =>
      -- The first half of a character has to be followed by the second.
      if 0xD800 ≤ high ∧ high < 0xDC00 then
        match rest with
        | '\\' :: 'u' :: a :: b :: c :: d :: rest =>
          match unit16 a b c d with
          | some low =>
            if 0xDC00 ≤ low ∧ low < 0xE000 then
              (stringBody rest).map fun r =>
                (r.map (Char.ofNat (0x10000 + (high - 0xD800) * 0x400 + (low - 0xDC00)) :: ·)).widen
                  (by simp; omega)
            else none
          | none => none
        | _ => none
      else if 0xDC00 ≤ high ∧ high < 0xE000 then none
      else (stringBody rest).map fun r => (r.map (Char.ofNat high :: ·)).widen (by simp; omega)
  | '\\' :: e :: rest =>
    let char :=
      match e with
      | '"' => some '"'
      | '\\' => some '\\'
      | '/' => some '/'
      | 'b' => some '\x08'
      | 'f' => some '\x0c'
      | 'n' => some '\n'
      | 'r' => some '\r'
      | 't' => some '\t'
      | _ => none
    match char with
    | some c => (stringBody rest).map fun r => (r.map (c :: ·)).widen (by simp; omega)
    | none => none
  | c :: rest =>
    if c.toNat < 0x20 ∨ c = '\\' then none
    else (stringBody rest).map fun r => (r.map (c :: ·)).widen (by simp)

structure Numeral where
  negative : Bool
  whole : List Char
  fraction : Option (List Char)
  exponent : Option (Bool × List Char)

def readNumeral (cs : List Char) : Numeral × List Char :=
  let (negative, cs) :=
    match cs with
    | '-' :: rest => (true, rest)
    | rest => (false, rest)
  let whole := cs.takeWhile Char.isDigit
  let cs := cs.dropWhile Char.isDigit
  -- A zero in front is the whole part by itself.
  let (whole, cs) :=
    match whole with
    | '0' :: d :: ds => (['0'], d :: ds ++ cs)
    | whole => (whole, cs)
  let (fraction, cs) :=
    match cs with
    | '.' :: rest => (some (rest.takeWhile Char.isDigit), rest.dropWhile Char.isDigit)
    | rest => (none, rest)
  match cs with
  | e :: rest =>
    if e == 'e' || e == 'E' then
      let (negativeExponent, rest) :=
        match rest with
        | '+' :: rest => (false, rest)
        | '-' :: rest => (true, rest)
        | rest => (false, rest)
      (⟨negative, whole, fraction,
        some (negativeExponent, rest.takeWhile Char.isDigit)⟩, rest.dropWhile Char.isDigit)
    else
      (⟨negative, whole, fraction, none⟩, e :: rest)
  | [] => (⟨negative, whole, fraction, none⟩, [])

/--
The number that a numeral writes. Whole numbers beyond 64 bits and negative zero are floats; a float
that is not finite is refused.
-/
def Numeral.value? (n : Numeral) : Option Json :=
  let float (digits : List Char) (exponent : Int) : Option Json :=
    let x := Binary64.ofDigits n.negative (digitsValue 10 digits) exponent
    if x.isFinite then some (.float x) else none
  if n.whole.isEmpty || n.fraction == some [] || n.exponent.any (·.2.isEmpty) then none
  else
    match n.fraction, n.exponent with
    | none, none =>
      let value := digitsValue 10 n.whole
      if n.negative then
        if value = 0 ∨ 2 ^ 63 < value then float n.whole 0 else some (.int (-value))
      else if value < 2 ^ 64 then some (.int value)
      else float n.whole 0
    | fraction, exponent =>
      let fraction := fraction.getD []
      let shift : Int :=
        match exponent with
        | none => 0
        | some (negative, ds) =>
          -- Cut off where only as many digits could make up for it.
          let size : Int := min (digitsValue 10 ds) 100000
          if negative then -size else size
      float (n.whole ++ fraction) (shift - fraction.length)

def number (cs : List Char) : Option (Read Json cs) :=
  match readNumeral cs with
  | (n, rest) =>
    if h : rest.length < cs.length then n.value?.map (·, ⟨rest, h⟩) else none

def word (w : List Char) (value : Json) (cs : List Char) : Option (Read Json cs) :=
  if h : w.isPrefixOf cs ∧ w ≠ [] then
    some (value, ⟨cs.drop w.length, by
      have hp := List.isPrefixOf_iff_prefix.mp h.1
      have := hp.length_le
      have := List.length_pos_iff.mpr h.2
      simp
      omega⟩)
  else none

mutual

/--
Read a value; `depth` bounds how far values may nest.
-/
def value (depth : Nat) (cs : List Char) : Option (Read Json cs) :=
  match cs with
  | [] => none
  | '"' :: rest => (stringBody rest).map fun r => (r.map (.string ∘ String.ofList)).widen (by simp)
  | '[' :: rest =>
    if depth = 0 then none
    else
      match h : skipSpace rest with
      | ']' :: rest' => some (.array [], ⟨rest', Nat.lt_succ_of_lt (skipSpace_cons_length h)⟩)
      | _ => (items (depth - 1) rest).map fun r => (r.map .array).widen (by simp)
  | '{' :: rest =>
    if depth = 0 then none
    else
      match h : skipSpace rest with
      | '}' :: rest' => some (.object [], ⟨rest', Nat.lt_succ_of_lt (skipSpace_cons_length h)⟩)
      | _ => (members (depth - 1) rest).map fun r => (r.map .object).widen (by simp)
  | 't' :: rest => word "true".toList (.bool true) ('t' :: rest)
  | 'f' :: rest => word "false".toList (.bool false) ('f' :: rest)
  | 'n' :: rest => word "null".toList .null ('n' :: rest)
  | c :: rest => number (c :: rest)
termination_by (cs.length, 0)

def items (depth : Nat) (cs : List Char) : Option (Read (List Json) cs) :=
  have hs := skipSpace_length cs
  match value depth (skipSpace cs) with
  | none => none
  | some (v, ⟨rest, h⟩) =>
    match hq : skipSpace rest with
    | ']' :: rest' => some ([v], ⟨rest', by have := skipSpace_cons_length hq; omega⟩)
    | ',' :: rest' =>
      have hr := skipSpace_cons_length hq
      (items depth rest').map fun r => (r.map (v :: ·)).widen (by omega)
    | _ => none
termination_by (cs.length, 1)
decreasing_by
  . simp only [Prod.lex_def]
    omega
  . simp only [Prod.lex_def]
    omega

def members (depth : Nat) (cs : List Char) : Option (Read (List (String × Json)) cs) :=
  match hk : skipSpace cs with
  | '"' :: rest =>
    have hs := skipSpace_cons_length hk
    match stringBody rest with
    | none => none
    | some (name, ⟨rest, h⟩) =>
      match hc : skipSpace rest with
      | ':' :: rest =>
        have hn := skipSpace_cons_length hc
        have hv := skipSpace_length rest
        match value depth (skipSpace rest) with
        | none => none
        | some (v, ⟨rest, h'⟩) =>
          match hq : skipSpace rest with
          | '}' :: rest' =>
            some ([(String.ofList name, v)], ⟨rest', by have := skipSpace_cons_length hq; omega⟩)
          | ',' :: rest' =>
            have hr := skipSpace_cons_length hq
            (members depth rest').map fun r =>
              (r.map ((String.ofList name, v) :: ·)).widen (by omega)
          | _ => none
      | _ => none
  | _ => none
termination_by (cs.length, 1)
decreasing_by
  . simp only [Prod.lex_def]
    omega
  . simp only [Prod.lex_def]
    omega

end

def maxDepth : Nat := 127

def parse? (text : String) : Option Json :=
  match value maxDepth (skipSpace text.toList) with
  | some (v, ⟨rest, _⟩) => if (skipSpace rest).isEmpty then some v else none
  | none => none

end Runbook.Json
