import Runbook.Text.Hex
import Runbook.Text.Utf8
import Runbook.Yaml.Cursor
import Runbook.Yaml.Token

/-!
This module contains the reading of what stands beside the contents of a YAML text: anchors,
aliases, tags and directives.
-/

namespace Runbook.Yaml

def isNameChar (c : Char) : Bool :=
  c.isAlphanum || c == '_' || c == '-'

def name? (c : Cursor) : Option (String × Cursor) :=
  let (name, c) := c.span isNameChar
  let isEnd (x : Char) := "?:,]\x7D%@".toList.contains x || x.toNat == 0x60
  let ends := endsWord c.rest || c.rest.head?.any isEnd
  if name.isEmpty || !ends then none else some (String.ofList name, c)

/--
Characters of tags. Brackets and commas are among them only between angle brackets.
-/
def isTagChar (inAngles : Bool) (c : Char) : Bool :=
  isNameChar c || ";/?:@&=+$.!~*'()%".toList.contains c
    || (inAngles && (c == ',' || c == '[' || c == ']'))

def percentBytes : List Char → Option Bytes
  | [] => some []
  | '%' :: hi :: lo :: cs =>
    if Text.isHexDigit hi && Text.isHexDigit lo then
      (percentBytes cs).map (UInt8.ofNat (Text.digitsValue 16 [hi, lo]) :: ·)
    else none
  | '%' :: _ => none
  | c :: cs => (percentBytes cs).map ((String.singleton c).toUTF8.toList ++ ·)

def tagText? (cs : List Char) : Option String := do
  let bytes ← percentBytes cs
  String.fromUTF8? (ByteArray.mk bytes.toArray)

/--
Read a tag in front of its exclamation mark. It has a handle, is whole between angle brackets, or
has the handle of a single mark.
-/
def tag? (inFlow : Bool) (c : Cursor) : Option (Token × Cursor) := do
  let (token, c) ←
    match c.rest with
    | '!' :: '<' :: _ => do
      let (text, c) := (c.skip 2).span (isTagChar true)
      if text.isEmpty ∨ c.rest.head? ≠ some '>' then none
      else pure (Token.tag "" (← tagText? text), c.skip 1)
    | _ => do
      let (word, behind) := (c.skip 1).span isNameChar
      if behind.rest.head? = some '!' then
        let (text, c) := (behind.skip 1).span (isTagChar false)
        if text.isEmpty then none
        else pure (Token.tag (String.ofList ('!' :: word ++ ['!'])) (← tagText? text), c)
      else
        let (text, c) := (c.skip 1).span (isTagChar false)
        if text.isEmpty then pure (Token.tag "" "!", c)
        else pure (Token.tag "!" (← tagText? text), c)
  if endsWord c.rest || (inFlow && c.rest.head? = some ',') then return (token, c) else none

/--
Read a version behind its name. Versions 1.1 and 1.2 can be read.
-/
def version? (c : Cursor) : Option (Token × Cursor) :=
  let (major, c) := (c.skipWhile isSpace).span Char.isDigit
  let (minor, d) := (c.skip 1).span Char.isDigit
  let number (cs : List Char) : Nat := Text.digitsValue 10 cs
  if major.isEmpty ∨ minor.isEmpty ∨ 9 < major.length ∨ 9 < minor.length
      ∨ c.rest.head? ≠ some '.' then none
  else if number major = 1 ∧ (number minor = 1 ∨ number minor = 2) then some (.version, d)
  else none

def tagHandle? (c : Cursor) : Option (Token × Cursor) := do
  let c := c.skipWhile isSpace
  let (word, behind) := (c.skip 1).span isNameChar
  let closed := behind.rest.head? = some '!'
  let behind := if closed then behind.skip 1 else behind
  if c.rest.head? ≠ some '!' ∨ (!closed ∧ !word.isEmpty) then none
  else if !behind.rest.head?.any isSpace then none
  else
    let (text, stop) := (behind.skipWhile isSpace).span (isTagChar true)
    let handle := String.ofList ('!' :: word ++ (if closed then ['!'] else []))
    if text.isEmpty ∨ !endsWord stop.rest then none
    else return (.tagHandle handle (← tagText? text), stop)

def directive? (c : Cursor) : Option (Token × Cursor) := do
  let (name, behind) := (c.skip 1).span isNameChar
  let (token, c) ←
    match String.ofList name with
    | "YAML" => version? behind
    | "TAG" => tagHandle? behind
    | _ => none
  let c := c.skipWhile isSpace
  let c := if c.rest.head? = some '#' then c.lineEnd else c
  if c.rest.isEmpty then return (token, c)
  else if c.atBreak then return (token, c.next)
  else none

end Runbook.Yaml
