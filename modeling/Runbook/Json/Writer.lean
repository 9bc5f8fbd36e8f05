import Runbook.Json.Basic
import Runbook.Text.Hex

/-!
This module contains the writing of JSON texts.
-/

namespace Runbook.Json

def escape (c : Char) : List Char :=
  if c = '"' then ['\\', '"']
  else if c = '\\' then ['\\', '\\']
  else if c = '\n' then ['\\', 'n']
  else if c = '\r' then ['\\', 'r']
  else if c = '\t' then ['\\', 't']
  else if c.toNat < 0x20 then
    ['\\', 'u', '0', '0', Text.hexDigit (c.toNat / 16), Text.hexDigit (c.toNat % 16)]
  else [c]

def quote (s : String) : String :=
  String.ofList ('"' :: s.toList.flatMap escape ++ ['"'])

/--
A float is written with a point; one that is not finite has no JSON form and becomes null.
-/
def floatText (x : Number.Binary64) : String :=
  if x.isFinite then
    let s := x.text
    if s.toList.contains '.' then s else s ++ ".0"
  else "null"

mutual

def write : Json → String
  | null => "null"
  | bool b => toString b
  | int n => toString n
  | float x => floatText x
  | string s => quote s
  | array items => "[" ++ ",".intercalate (writeItems items) ++ "]"
  | object fields => "\x7b" ++ ",".intercalate (writeFields fields) ++ "\x7d"

def writeItems : List Json → List String
  | [] => []
  | v :: vs => write v :: writeItems vs

def writeFields : List (String × Json) → List String
  | [] => []
  | (name, v) :: fs => (quote name ++ ":" ++ write v) :: writeFields fs

end

end Runbook.Json
