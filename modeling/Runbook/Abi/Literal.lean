import Runbook.Abi.Value

/-!
This module contains the reading of ABI values from text: numbers with units, hexadecimal digits,
lists in brackets and tuples in parentheses.
-/

namespace Runbook.Abi

open Text

/--
Reads a value off the front of a text. Inside a list, `close` is the character that ends it.
-/
abbrev LiteralReader (α : Type) := (close : Option Char) → List Char → Option (α × List Char)

namespace LiteralReader

def skipSpace (cs : List Char) : List Char :=
  cs.dropWhile fun c => c == ' ' || c == '\t'

def expect (c : Char) : List Char → Option (List Char)
  | [] => none
  | d :: cs => if c = d then some cs else none

def bool : LiteralReader AbiValue := fun _ cs =>
  let rest := cs.dropWhile Char.isAlpha
  match String.ofList (cs.takeWhile Char.isAlpha) with
  | "true" => some (.bool true, rest)
  | "false" => some (.bool false, rest)
  | _ => none

def digits (cs : List Char) : Option (Nat × List Char × List Char) :=
  -- Marked digits are read alike. Those that the radix does not have are refused by `number`.
  let hex (radix : Nat) (cs : List Char) : Nat × List Char × List Char :=
    (radix, cs.takeWhile isHexDigit, cs.dropWhile isHexDigit)
  let (radix, ds, rest) :=
    match cs with
    | '0' :: 'x' :: rest | '0' :: 'X' :: rest => hex 16 rest
    | '0' :: 'o' :: rest | '0' :: 'O' :: rest => hex 8 rest
    | '0' :: 'b' :: rest | '0' :: 'B' :: rest => hex 2 rest
    | cs => (10, cs.takeWhile Char.isDigit, cs.dropWhile Char.isDigit)
  if ds.isEmpty then none else some (radix, ds, rest)

def number (radix : Nat) (ds : List Char) : Option Nat :=
  if ds.all (digitValue · < radix) && digitsValue radix ds < 2 ^ 256 then
    some (digitsValue radix ds)
  else
    none

def unitPower? (name : String) : Option Nat :=
  match name with
  | "ether" => some 18
  | "gwei" | "nano" | "nanoether" => some 9
  | "" | "wei" => some 0
  | _ => none

def natural (bits : Nat) (cs : List Char) : Option (Nat × List Char) := do
  let (radix, whole, rest) ← digits cs
  let (places, rest) ←
    match rest with
    | '.' :: rest =>
      let places := rest.takeWhile Char.isDigit
      if places.isEmpty then none else some (some places, rest.dropWhile Char.isDigit)
    | rest => some (none, rest)
  let rest := skipSpace rest
  let power ← unitPower? (String.ofList (rest.takeWhile Char.isAlpha))
  let rest := rest.dropWhile Char.isAlpha
  let value ←
    match places with
    | none => (number radix whole).map (· * 10 ^ power)
    | some places => do
      let fraction ← number 10 places
      -- The unit has to have as many places, so that the value is whole.
      if radix ≠ 10 ∨ power < places.length then none
      else
        let whole ← number 10 whole
        pure ((whole * 10 ^ places.length + fraction) * 10 ^ (power - places.length))
  if value < 2 ^ bits then some (value, rest) else none

def uint (bits : Nat) : LiteralReader AbiValue := fun _ cs =>
  (natural bits cs).map fun (n, rest) => (.uint n, rest)

/--
Only a number without a minus sign is held to the range of `bits` bits; any other may have that many
bits behind its sign.
-/
def int (bits : Nat) : LiteralReader AbiValue := fun _ cs => do
  let (negative, cs) :=
    match cs with
    | '+' :: cs => (false, cs)
    | '-' :: cs => (true, cs)
    | cs => (false, cs)
  let (n, rest) ← natural bits cs
  if negative then
    if n ≤ 2 ^ 255 then some (.int (-n), rest) else none
  else
    if n < 2 ^ (bits - 1) then some (.int n, rest) else none

/--
Bytes in hexadecimal digits; no bytes at all need the mark.
-/
def hexBytes (cs : List Char) : Option (Bytes × List Char) :=
  let (marked, cs) :=
    match cs with
    | '0' :: 'x' :: cs => (true, cs)
    | cs => (false, cs)
  let ds := cs.takeWhile isHexDigit
  if ds.isEmpty && !marked then none
  else (unhexDigits ds).map (·, cs.dropWhile isHexDigit)

def sized (size : Nat) (f : Bytes → Option AbiValue) : LiteralReader AbiValue := fun _ cs => do
  let (bs, rest) ← hexBytes cs
  if bs.length = size then return (← f bs, rest) else none

def bytes : LiteralReader AbiValue := fun _ cs =>
  (hexBytes cs).map fun (bs, rest) => (.bytes bs, rest)

def string : LiteralReader AbiValue := fun close cs =>
  let value (cs : List Char) : AbiValue := .string (String.ofList cs)
  let trimEnd (cs : List Char) : List Char := (cs.reverse.dropWhile isBlank).reverse
  match cs with
  | [] => some (value [], [])
  | c :: rest =>
    if c = '"' ∨ c = '\'' then
      (expect c (rest.dropWhile (· ≠ c))).map (value (rest.takeWhile (· ≠ c)), ·)
    else
      match close with
      | none => some (value (trimEnd cs), [])
      | some close =>
        let inside (c : Char) : Bool := c ≠ ',' && c ≠ close
        if inside c then some (value (trimEnd (cs.takeWhile inside)), cs.dropWhile inside) else none

/--
One or more items with commas between them and the closing bracket; `fuel` bounds their number.
-/
def itemsFrom {α : Type} (item : List Char → Option (α × List Char)) :
    Nat → List Char → Option (List α × List Char)
  | 0, _ => none
  | fuel + 1, cs => do
    let (v, rest) ← item cs
    match rest with
    | ',' :: rest => do
      let (vs, rest) ← itemsFrom item fuel (skipSpace rest)
      return (v :: vs, rest)
    | rest => do
      let rest ← expect ']' (skipSpace rest)
      return ([v], rest)

def list {α : Type} (item : LiteralReader α) : LiteralReader (List α) := fun _ cs => do
  let cs := skipSpace (← expect '[' cs)
  match cs with
  | ']' :: rest => return ([], rest)
  | cs => itemsFrom (item (some ']')) (cs.length + 1) cs

def tupleRest {α : Type} : List (LiteralReader α) → List Char → Option (List α × List Char)
  | [], cs => some ([], cs)
  | r :: rs, cs => do
    let (v, cs) ← r (some ')') (skipSpace (← expect ',' (skipSpace cs)))
    let (vs, cs) ← tupleRest rs cs
    return (v :: vs, cs)

def tuple {α : Type} (items : List (LiteralReader α)) : LiteralReader (List α) := fun _ cs => do
  let cs := skipSpace (← expect '(' (skipSpace cs))
  let (vs, cs) ←
    match items with
    | [] => some ([], cs)
    | r :: rs => do
      let (v, cs) ← r (some ')') cs
      let (vs, cs) ← tupleRest rs cs
      pure (v :: vs, cs)
  let cs ← expect ')' (skipSpace cs)
  return (vs, cs)

def map {α β : Type} (f : α → β) (r : LiteralReader α) : LiteralReader β := fun close cs =>
  (r close cs).map fun (v, rest) => (f v, rest)

def filter {α : Type} (p : α → Bool) (r : LiteralReader α) : LiteralReader α := fun close cs =>
  (r close cs).filter fun (v, _) => p v

end LiteralReader

namespace AbiType

mutual

def literalReader : AbiType → LiteralReader AbiValue
  | bool => .bool
  | address => .sized 20 fun bs => (Address.ofBytes? bs).map .address
  | function => .sized 24 fun bs => some (.function bs)
  | string => .string
  | bytes => .bytes
  | uint bits => .uint bits
  | int bits => .int bits
  | fixedBytes size => .sized size fun bs => some (.fixedBytes bs)
  | array item => (LiteralReader.list item.literalReader).map .array
  | fixedArray item size =>
    ((LiteralReader.list item.literalReader).filter (·.length == size)).map .fixedArray
  | tuple items => (LiteralReader.tuple (literalReaders items)).map .tuple

def literalReaders : List AbiType → List (LiteralReader AbiValue)
  | [] => []
  | t :: ts => t.literalReader :: literalReaders ts

end

def parse? (t : AbiType) (text : String) : Option AbiValue :=
  match t.literalReader none text.toList with
  | some (v, []) => some v
  | _ => none

end AbiType

end Runbook.Abi
