import Runbook.Json.Basic
import Runbook.Text.Casing
import Runbook.Text.Digit

/-!
This module contains the form in which results are shown to people.
-/

namespace Runbook

def transactionMark : String := "tx:"

/--
Digits that write an address are put in small letters. Other digits write a quantity, shown in
decimal, unless they are more than those of 256 bits or start with a zero, which makes them bytes.
-/
def prettyDigits (digits : List Char) : String :=
  let text := String.ofList ('0' :: 'x' :: digits)
  if digits.length = 40 then Text.lower text
  else if 64 < digits.length ∨ (1 < digits.length ∧ digits.head? = some '0') then text
  else toString (Text.digitsValue 16 digits)

def prettyText (text : String) : String :=
  let cs := text.toList
  let mark := transactionMark.toList
  if mark.isPrefixOf cs then String.ofList (cs.drop mark.length)
  else
    match cs with
    | '0' :: 'x' :: digits =>
      if !digits.isEmpty && digits.all Text.isHexDigit then prettyDigits digits else text
    | _ => text

namespace Json

mutual

/--
The value with every text in it made pretty; names of fields stay.
-/
def prettify : Json → Json
  | string s => string (prettyText s)
  | array items => array (prettifyItems items)
  | object fields => object (prettifyFields fields)
  | null => null
  | bool b => bool b
  | int n => int n
  | float x => float x

def prettifyItems : List Json → List Json
  | [] => []
  | v :: vs => v.prettify :: prettifyItems vs

def prettifyFields : List (String × Json) → List (String × Json)
  | [] => []
  | (name, v) :: fs => (name, v.prettify) :: prettifyFields fs

end

end Json

end Runbook
