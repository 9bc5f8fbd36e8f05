import Runbook.Pattern.Basic

/-!
This module contains the modes that regular expressions are read in, and the sets of characters that
have a name in them.
-/

namespace Runbook.Pattern

structure Mode where
  caseless : Bool := false
  multiline : Bool := false
  dotAll : Bool := false
  /-- Blanks and comments in the pattern do not count. -/
  verbose : Bool := false
  /-- Lines may also end in a carriage return. -/
  anyLine : Bool := false
  /-- Named sets hold ASCII characters only, and matches must not split others. -/
  ascii : Bool := false
deriving Repr, DecidableEq

namespace Mode

def switch? (m : Mode) (letter : Char) (on : Bool) : Option Mode :=
  match letter with
  | 'i' => some { m with caseless := on }
  | 'm' => some { m with multiline := on }
  | 's' => some { m with dotAll := on }
  | 'x' => some { m with verbose := on }
  | 'R' => some { m with anyLine := on }
  | 'u' => some { m with ascii := !on }
  -- What matches does not depend on which repetitions are lazy.
  | 'U' => some m
  | _ => none

/--
Read mode letters up to the character that ends them. A minus sign turns those behind it off.
-/
def read? (m : Mode) (seen : List Char) : List Char → Option (Mode × List Char)
  | [] => none
  | c :: cs =>
    if c = ':' ∨ c = ')' then
      if seen.head? = some '-' then none else some (m, c :: cs)
    else if seen.contains c then none
    else if c = '-' then read? m (c :: seen) cs
    else (m.switch? c (!seen.contains '-')).bind fun m => read? m (c :: seen) cs

def asciiWord : CharSet :=
  .ofRanges [('0', '9'), ('A', 'Z'), ('_', '_'), ('a', 'z')]

def wordSet (m : Mode) : CharSet :=
  if m.ascii then asciiWord else .word

def decimalSet (m : Mode) : CharSet :=
  if m.ascii then .range '0' '9' else .decimal

def blankSet (m : Mode) : CharSet :=
  if m.ascii then .ofRanges [('\t', '\r'), (' ', ' ')] else .blank

def fold (m : Mode) (s : CharSet) : CharSet :=
  if m.caseless then .anyCase s else s

def compl? (m : Mode) (s : CharSet) : Option CharSet :=
  if m.ascii then none else some (.compl s)

def dot? (m : Mode) : Option CharSet :=
  if m.ascii then none
  else if m.dotAll then some .any
  else if m.anyLine then some (.compl (.union (.single '\n') (.single '\r')))
  else some (.compl (.single '\n'))

def lineStart (m : Mode) : Look :=
  if !m.multiline then .start else if m.anyLine then .anyLineStart else .lineStart

def lineFinish (m : Mode) : Look :=
  if !m.multiline then .finish else if m.anyLine then .anyLineFinish else .lineFinish

def skip (m : Mode) (cs : List Char) : List Char :=
  if m.verbose then go (cs.length + 1) cs else cs
where
  go : Nat → List Char → List Char
    | 0, cs => cs
    | fuel + 1, cs =>
      match cs.dropWhile Text.isBlank with
      | '#' :: rest => go fuel (rest.dropWhile (· ≠ '\n'))
      | rest => rest

end Mode

def posixClass? (name : String) : Option CharSet :=
  match name with
  | "alnum" => some (.ofRanges [('0', '9'), ('A', 'Z'), ('a', 'z')])
  | "alpha" => some (.ofRanges [('A', 'Z'), ('a', 'z')])
  | "ascii" => some (.ofRanges [('\x00', '\x7F')])
  | "blank" => some (.ofRanges [('\t', '\t'), (' ', ' ')])
  | "cntrl" => some (.ofRanges [('\x00', '\x1F'), ('\x7F', '\x7F')])
  | "digit" => some (.ofRanges [('0', '9')])
  | "graph" => some (.ofRanges [('!', '~')])
  | "lower" => some (.ofRanges [('a', 'z')])
  | "print" => some (.ofRanges [(' ', '~')])
  | "punct" => some (.ofRanges [('!', '/'), (':', '@'), ('[', Char.ofNat 0x60), ('\x7B', '~')])
  | "space" => some (.ofRanges [('\t', '\r'), (' ', ' ')])
  | "upper" => some (.ofRanges [('A', 'Z')])
  | "word" => some Mode.asciiWord
  | "xdigit" => some (.ofRanges [('0', '9'), ('A', 'F'), ('a', 'f')])
  | _ => none

/--
The name of a property in small letters, without blanks, underscores, hyphens and a leading `is`.
-/
def propertyKey (name : List Char) : String :=
  let key := (name.filter fun c => !(Text.isBlank c || c == '_' || c == '-')).map Char.toLower
  String.ofList <|
    match key with
    | 'i' :: 's' :: rest => rest
    | key => key

def property? (name : List Char) : Option CharSet :=
  match propertyKey name with
  | "l" | "letter" | "alphabetic" | "alpha" => some .letter
  | "lu" | "uppercaseletter" | "uppercase" | "upper" => some .capital
  | "ll" | "lowercaseletter" | "lowercase" | "lower" => some .small
  | "m" | "mark" | "combiningmark" => some (.table Text.marks)
  | "n" | "number" => some (.union .decimal (.table Text.letterNumbers))
  | "nd" | "decimalnumber" | "digit" => some .decimal
  | "nl" | "letternumber" => some (.table Text.letterNumbers)
  | "pc" | "connectorpunctuation" => some (.table Text.connectors)
  | "whitespace" | "wspace" | "space" => some .blank
  | "any" => some .any
  | "ascii" => some (.range '\x00' '\x7F')
  | "latin" | "latn" =>
    some (.inter .letter (.table [(0x41, 0x24F), (0x250, 0x2AF), (0x1E00, 0x1EFF), (0x2C60, 0x2C7F),
      (0xA722, 0xA7FF), (0xFB00, 0xFB06), (0xFF21, 0xFF5A)]))
  | "greek" | "grek" =>
    some (.inter .letter (.table [(0x370, 0x3FF), (0x1F00, 0x1FFF)]))
  | "cyrillic" | "cyrl" =>
    some (.inter .letter (.table [(0x400, 0x52F), (0x1C80, 0x1C88), (0x2DE0, 0x2DFF),
      (0xA640, 0xA69F)]))
  | "han" | "hani" =>
    some (.table [(0x2E80, 0x2E99), (0x2E9B, 0x2EF3), (0x2F00, 0x2FD5), (0x3005, 0x3005),
      (0x3007, 0x3007), (0x3021, 0x3029), (0x3038, 0x303B), (0x3400, 0x4DBF), (0x4E00, 0x9FFF),
      (0xF900, 0xFA6D), (0xFA70, 0xFAD9), (0x20000, 0x323AF)])
  | "hiragana" | "hira" => some (.table [(0x3041, 0x3096), (0x309D, 0x309F)])
  | "katakana" | "kana" =>
    some (.table [(0x30A1, 0x30FA), (0x30FD, 0x30FF), (0x31F0, 0x31FF), (0xFF66, 0xFF6F),
      (0xFF71, 0xFF9D)])
  | _ => none

end Runbook.Pattern
