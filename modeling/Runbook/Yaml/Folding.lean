import Runbook.Text.Digit
import Runbook.Yaml.Cursor

/-!
This module contains the texts of YAML scalars: plain ones, quoted ones, and blocks of lines. Line
breaks inside them are folded.
-/

namespace Runbook.Yaml

/--
Blanks between two words of a scalar, in reverse: those before the first line break, that break, and
the breaks behind it. A line break that is escaped leaves no character.
-/
structure Gap where
  blanks : List Char := []
  first : Option (List Char) := none
  more : List Char := []
deriving Repr, DecidableEq

namespace Gap

def isEmpty (g : Gap) : Bool :=
  g.blanks.isEmpty && g.first.isNone && g.more.isEmpty

def addBlank (g : Gap) (c : Char) : Gap :=
  if g.first.isSome then g else { g with blanks := c :: g.blanks }

def addBreak (g : Gap) (c : Char) : Gap :=
  if g.first.isSome then { g with more := c :: g.more }
  else { g with blanks := [], first := some [c] }

/--
What the gap reads as, in reverse. A single line feed folds to a blank, and of several the first is
dropped.
-/
def folded (g : Gap) : List Char :=
  match g.first with
  | none => g.blanks
  | some ['\n'] => if g.more.isEmpty then [' '] else g.more
  | some first => g.more ++ first

end Gap

def isFlowMark (c : Char) : Bool :=
  c == ',' || c == '[' || c == ']' || c == '\x7B' || c == '\x7D'

def endsPlain (inFlow : Bool) (cs : List Char) : Bool :=
  match cs with
  | [] => true
  | ':' :: rest => endsWord rest
  | c :: _ => inFlow && isFlowMark c

def badColon (inFlow : Bool) (cs : List Char) : Bool :=
  match cs with
  | ':' :: c :: _ => inFlow && (isFlowMark c || c == '?')
  | _ => false

/--
Read on in a plain scalar, `acc` being its text in reverse. It ends at a comment, at a line that
stands too far left, and at a line that separates documents. Answers also whether a line break
follows it.
-/
def plainText (inFlow : Bool) (indent : Nat) :
    Nat → List Char → Gap → Cursor → Option (String × Bool × Cursor)
  | 0, _, _, _ => none
  | fuel + 1, acc, gap, c =>
    let done := some (String.ofList acc.reverse, gap.first.isSome, c)
    match c.rest with
    | [] => done
    | x :: _ =>
      if isBreak x then plainText inFlow indent fuel acc (gap.addBreak (breakChar c.rest)) c.next
      else if isSpace x then
        if gap.first.isSome ∧ c.column < indent ∧ x = '\t' then none
        else plainText inFlow indent fuel acc (gap.addBlank x) c.next
      else if !gap.isEmpty ∧
          (x = '#' ∨ c.atDocumentMark ∨ (!inFlow ∧ gap.first.isSome ∧ c.column < indent)) then done
      else if badColon inFlow c.rest then none
      else if endsPlain inFlow c.rest then done
      else plainText inFlow indent fuel (x :: (gap.folded ++ acc)) {} c.next

def plainScalar (inFlow : Bool) (indent : Nat) (c : Cursor) : Option (String × Bool × Cursor) :=
  plainText inFlow indent (c.rest.length + 1) [] {} c

def escapeChar? (c : Char) : Option Char :=
  match c with
  | '0' => some '\x00'
  | 'a' => some '\x07'
  | 'b' => some '\x08'
  | 't' | '\t' => some '\t'
  | 'n' => some '\n'
  | 'v' => some '\x0B'
  | 'f' => some '\x0C'
  | 'r' => some '\r'
  | 'e' => some '\x1B'
  | ' ' => some ' '
  | '"' => some '"'
  | '/' => some '/'
  | '\\' => some '\\'
  | 'N' => some (Char.ofNat 0x85)
  | '_' => some (Char.ofNat 0xA0)
  | 'L' => some (Char.ofNat 0x2028)
  | 'P' => some (Char.ofNat 0x2029)
  | _ => none

def escapeDigits? (c : Char) : Option Nat :=
  match c with
  | 'x' => some 2
  | 'u' => some 4
  | 'U' => some 8
  | _ => none

def escape? (c : Cursor) : Option (Char × Cursor) :=
  match c.rest with
  | [] => none
  | x :: rest =>
    match escapeDigits? x with
    | some count =>
      let digits := rest.take count
      let n := Text.digitsValue 16 digits
      if h : digits.length = count ∧ digits.all Text.isHexDigit ∧ n.isValidChar then
        some (Char.ofNatAux n h.2.2, c.skip (count + 1))
      else none
    | none => (escapeChar? x).map fun y => (y, c.skip 1)

/--
Read on in a quoted scalar. In double quotes a backslash escapes, also the end of a line; in single
quotes a quote is written twice.
-/
def quotedText (quote : Char) : Nat → List Char → Gap → Cursor → Option (String × Cursor)
  | 0, _, _, _ => none
  | fuel + 1, acc, gap, c =>
    if c.atDocumentMark then none
    else
      match c.rest with
      | [] => none
      | x :: rest =>
        if isBreak x then quotedText quote fuel acc (gap.addBreak (breakChar c.rest)) c.next
        else if isSpace x then quotedText quote fuel acc (gap.addBlank x) c.next
        else
          let acc := gap.folded ++ acc
          if x = quote then
            if quote = '\'' ∧ rest.head? = some '\'' then
              quotedText quote fuel ('\'' :: acc) {} (c.skip 2)
            else some (String.ofList acc.reverse, c.next)
          else if x = '\\' ∧ quote = '"' then
            if rest.head?.any isBreak then
              quotedText quote fuel acc { first := some [] } c.next.next
            else
              match escape? c.next with
              | some (y, c) => quotedText quote fuel (y :: acc) {} c
              | none => none
          else quotedText quote fuel (x :: acc) {} c.next

def quotedScalar (quote : Char) (c : Cursor) : Option (String × Cursor) :=
  quotedText quote (c.rest.length + 1) [] {} c

inductive Chomp where
  | strip
  | clip
  | keep
deriving Repr, DecidableEq

def blockHeader? (cs : List Char) : Option (Chomp × Option Nat × List Char) :=
  let chomp : List Char → Option Chomp × List Char
    | '+' :: cs => (some .keep, cs)
    | '-' :: cs => (some .strip, cs)
    | cs => (none, cs)
  let depth : List Char → Option (Option Nat) × List Char
    | c :: cs =>
      if c.isDigit then (if c = '0' then none else some (some (c.toNat - 48)), cs)
      else (some none, c :: cs)
    | [] => (some none, [])
  let (before, cs) := chomp cs
  let (digits, cs) := depth cs
  let (behind, cs) := if before.isNone then chomp cs else (none, cs)
  digits.map fun d => ((before.or behind).getD .clip, d, cs)

/--
Skip the indentation of a block and the line breaks before its next line. Without a known
indentation the widest line decides, which is the last answer.
-/
def blockBreaks (indent : Option Nat) :
    Nat → List Char → Nat → Cursor → Option (List Char × Nat × Cursor)
  | 0, _, _, _ => none
  | fuel + 1, breaks, widest, c =>
    let width := match indent with
      | some n => min (c.rest.takeWhile (· == ' ')).length (n - c.column)
      | none => (c.rest.takeWhile (· == ' ')).length
    let c := c.skip width
    let widest := max widest c.column
    let inside := indent.all fun n => c.column < n
    match c.rest with
    | '\t' :: _ => if inside then none else some (breaks, widest, c)
    | x :: _ =>
      if isBreak x then blockBreaks indent fuel (breakChar c.rest :: breaks) widest c.next
      else some (breaks, widest, c)
    | [] => some (breaks, widest, c)

/--
Read the lines of a block, `acc` being its text in reverse, `pending` the break behind the last line
and `breaks` those behind it, in reverse. Answers the text without them.
-/
def blockLines (literal : Bool) (indent : Nat) :
    Nat → List Char → Option Char → List Char → Bool → Cursor →
      Option (List Char × Option Char × List Char × Cursor)
  | 0, _, _, _, _, _ => none
  | fuel + 1, acc, pending, breaks, afterBlank, c =>
    if c.column ≠ indent ∨ c.rest.isEmpty then some (acc, pending, breaks, c)
    else
      let startsBlank := c.rest.head?.any isSpace
      let folds := !literal && pending == some '\n' && !afterBlank && !startsBlank
      let acc :=
        if folds then (if breaks.isEmpty then ' ' :: acc else breaks ++ acc)
        else breaks ++ (pending.toList ++ acc)
      let (line, stop) := c.span fun _ => true
      let acc := line.reverse ++ acc
      let pending := if stop.rest.isEmpty then none else some (breakChar stop.rest)
      match blockBreaks (some indent) (stop.rest.length + 1) [] 0 stop.next with
      | some (breaks, _, c) => blockLines literal indent fuel acc pending breaks startsBlank c
      | none => none

/--
The block scalar behind its mark, where the lines around it are indented by `outer`, or by nothing
if they are at the top.
-/
def blockScalar (literal : Bool) (outer : Option Nat) (c : Cursor) : Option (String × Cursor) := do
  let (chomp, depth, rest) ← blockHeader? c.rest
  let c := (c.skip (c.rest.length - rest.length)).skipWhile isSpace
  let c := if c.rest.head? = some '#' then c.lineEnd else c
  if !c.rest.isEmpty ∧ !c.atBreak then none
  else
    let c := c.next
    let least := match outer with
      | some n => n + 1
      | none => 0
    let known := depth.map fun d => (outer.getD 0) + d
    let (breaks, widest, c) ← blockBreaks known (c.rest.length + 1) [] 0 c
    let indent := known.getD (max (max widest least) 1)
    let (acc, pending, breaks, c) ←
      blockLines literal indent (c.rest.length + 1) [] none breaks false c
    let text := match chomp with
      | .strip => acc
      | .clip => pending.toList ++ acc
      | .keep => breaks ++ (pending.toList ++ acc)
    return (String.ofList text.reverse, c)

end Runbook.Yaml
