import Runbook.Yaml.Folding
import Runbook.Yaml.Property

/-!
This module contains the layout of YAML texts: cutting them into tokens, where indentation and
colons open and close blocks.
-/

namespace Runbook.Yaml

structure PossibleKey where
  /-- The number of tokens before it. -/
  position : Nat
  /-- Whether nothing but a key may stand there. -/
  required : Bool
  cursor : Cursor
deriving Repr

structure Layout where
  cursor : Cursor
  /-- Newest first. -/
  tokens : List Token := []
  /-- The columns of the open blocks, innermost first. -/
  indents : List Nat := []
  /-- The possible key outside of all brackets. -/
  key : Option PossibleKey := none
  /-- The possible keys inside of open brackets, innermost first. -/
  flowKeys : List (Option PossibleKey) := []
  /-- Whether the next token may become a key. -/
  keyAllowed : Bool := true

namespace Layout

def inFlow (s : Layout) : Bool :=
  !s.flowKeys.isEmpty

def emit (t : Token) (s : Layout) : Layout :=
  { s with tokens := t :: s.tokens }

def insert (position : Nat) (t : Token) (s : Layout) : Layout :=
  let newer := s.tokens.length - position
  { s with tokens := s.tokens.take newer ++ t :: s.tokens.drop newer }

def move (c : Cursor) (s : Layout) : Layout :=
  { s with cursor := c }

def allowKey (b : Bool) (s : Layout) : Layout :=
  { s with keyAllowed := b }

def currentKey (s : Layout) : Option PossibleKey :=
  match s.flowKeys with
  | k :: _ => k
  | [] => s.key

def setKey (k : Option PossibleKey) (s : Layout) : Layout :=
  match s.flowKeys with
  | _ :: ks => { s with flowKeys := k :: ks }
  | [] => { s with key := k }

def dropKey? (s : Layout) : Option Layout :=
  if s.currentKey.any (·.required) then none else some (s.setKey none)

def noteKey? (s : Layout) : Option Layout :=
  if s.keyAllowed then
    s.dropKey?.map fun s =>
      s.setKey <| some {
        position := s.tokens.length
        required := !s.inFlow && s.indents.head? == some s.cursor.column
        cursor := s.cursor }
  else some s

def maxKeyLength : Nat := 1024

def isStale (c : Cursor) (k : PossibleKey) : Bool :=
  k.cursor.line < c.line || k.cursor.index + maxKeyLength < c.index

def dropStale? (s : Layout) : Option Layout :=
  let stale (k : Option PossibleKey) : Bool := k.any (isStale s.cursor)
  let fresh (k : Option PossibleKey) : Option PossibleKey := if stale k then none else k
  if (s.key :: s.flowKeys).any fun k => stale k && k.any (·.required) then none
  else some { s with key := fresh s.key, flowKeys := s.flowKeys.map fresh }

/--
Close the blocks that stand further right than `column`, or all of them.
-/
def closeBlocks (column : Option Nat) (s : Layout) : Layout :=
  if s.inFlow then s
  else
    let inner := s.indents.takeWhile fun n => column.all (· < n)
    { s with
      tokens := inner.map (fun _ => .closeBlock) ++ s.tokens
      indents := s.indents.drop inner.length }

/--
Open a block at `column`, in front of the token at `position`, unless one is open there.
-/
def openBlock (column position : Nat) (t : Token) (s : Layout) : Layout :=
  if s.inFlow ∨ s.indents.head?.any (column ≤ ·) then s
  else { s.insert position t with indents := column :: s.indents }

def skipBlanks : Nat → Layout → Layout
  | 0, s => s
  | fuel + 1, s =>
    -- Tabs must not stand in front of a key.
    let tabs := s.inFlow || !s.keyAllowed
    let c := s.cursor.skipWhile fun x => x == ' ' || (tabs && x == '\t')
    let c := if c.rest.head? = some '#' then c.lineEnd else c
    if c.atBreak then
      -- Outside of brackets, a new line may begin with a key.
      skipBlanks fuel { s with cursor := c.next, keyAllowed := s.keyAllowed || !s.inFlow }
    else s.move c

def topLevel? (t : Token) (behind : Cursor) (s : Layout) : Option Layout :=
  (s.closeBlocks none).dropKey?.map fun s => ((s.allowKey false).emit t).move behind

def openFlow? (t : Token) (s : Layout) : Option Layout :=
  s.noteKey?.map fun s =>
    (({ s with flowKeys := none :: s.flowKeys }.allowKey true).emit t).move s.cursor.next

def closeFlow? (t : Token) (s : Layout) : Option Layout :=
  s.dropKey?.map fun s =>
    (({ s with flowKeys := s.flowKeys.drop 1 }.allowKey false).emit t).move s.cursor.next

def comma? (s : Layout) : Option Layout :=
  s.dropKey?.map fun s => ((s.allowKey true).emit .comma).move s.cursor.next

def dash? (s : Layout) : Option Layout :=
  if !s.inFlow && !s.keyAllowed then none
  else
    let s := s.openBlock s.cursor.column s.tokens.length .openBlockSeq
    s.dropKey?.map fun s => ((s.allowKey true).emit .dash).move s.cursor.next

def explicitKey? (s : Layout) : Option Layout :=
  if !s.inFlow && !s.keyAllowed then none
  else
    let s := s.openBlock s.cursor.column s.tokens.length .openBlockMap
    s.dropKey?.map fun s => ((s.allowKey (!s.inFlow)).emit .key).move s.cursor.next

def value? (s : Layout) : Option Layout := do
  let s ←
    match s.currentKey with
    | some k =>
      let s := s.insert k.position .key
      some (((s.openBlock k.cursor.column k.position .openBlockMap).setKey none).allowKey false)
    | none =>
      if !s.inFlow && !s.keyAllowed then none
      else
        let s := s.openBlock s.cursor.column s.tokens.length .openBlockMap
        some (s.allowKey (!s.inFlow))
  return (s.emit .value).move s.cursor.next

def keyToken? (read : Cursor → Option (Token × Cursor)) (s : Layout) : Option Layout := do
  let s ← s.noteKey?
  let (t, c) ← read s.cursor
  return ((s.allowKey false).emit t).move c

def block? (style : Style) (s : Layout) : Option Layout := do
  let s ← s.dropKey?
  let (text, c) ← blockScalar (style = .literal) s.indents.head? s.cursor.next
  return ((s.allowKey true).emit (.scalar text style)).move c

def quoted? (quote : Char) (s : Layout) : Option Layout :=
  s.keyToken? fun c => (quotedScalar quote c.next).map fun (text, c) => (.scalar text .quoted, c)

def plain? (s : Layout) : Option Layout := do
  let s ← s.noteKey?
  let indent := match s.indents.head? with
    | some n => n + 1
    | none => 0
  let (text, breaks, c) ← plainScalar s.inFlow indent s.cursor
  return ((s.allowKey breaks).emit (.scalar text .plain)).move c

def alias? (s : Layout) : Option Layout :=
  s.keyToken? fun c => (name? c.next).map fun (name, c) => (.alias name, c)

def anchor? (s : Layout) : Option Layout :=
  s.keyToken? fun c => (name? c.next).map fun (name, c) => (.anchor name, c)

def startsPlain (inFlow : Bool) (x : Char) (rest : List Char) : Bool :=
  if x = '-' then !endsWord rest
  else if x = '?' ∨ x = ':' then !inFlow && !endsWord rest
  else !(",[]\x7B\x7D#&*!|>'\"%@".toList.contains x || x.toNat == 0x60)

def token? (x : Char) (rest : List Char) (s : Layout) : Option Layout :=
  let marked := s.inFlow || endsWord rest
  if s.cursor.column = 0 && x == '%' then do
    let (t, c) ← directive? s.cursor
    s.topLevel? t c
  else if s.cursor.atDocumentMark then
    s.topLevel? (if x = '-' then .documentStart else .documentEnd) (s.cursor.skip 3)
  else if x = '[' then s.openFlow? .openSeq
  else if x = '\x7B' then s.openFlow? .openMap
  else if x = ']' then s.closeFlow? .closeSeq
  else if x = '\x7D' then s.closeFlow? .closeMap
  else if x = ',' then s.comma?
  else if x = '-' ∧ endsWord rest then s.dash?
  else if x = '?' ∧ marked then s.explicitKey?
  else if x = ':' ∧ marked then s.value?
  else if x = '*' then s.alias?
  else if x = '&' then s.anchor?
  else if x = '!' then s.keyToken? (tag? s.inFlow)
  else if x = '|' ∧ !s.inFlow then s.block? .literal
  else if x = '>' ∧ !s.inFlow then s.block? .folded
  else if x = '\'' ∨ x = '"' then s.quoted? x
  else if startsPlain s.inFlow x rest then s.plain?
  else none

/--
Read tokens until the text ends. Every round takes a character.
-/
def read? : Nat → Layout → Option (List Token)
  | 0, _ => none
  | fuel + 1, s => do
    let s := skipBlanks (s.cursor.rest.length + 1) s
    let s ← s.dropStale?
    match s.cursor.rest with
    | [] => do
      let s ← (s.closeBlocks none).dropKey?
      return s.tokens.reverse
    | x :: rest =>
      let s ← (s.closeBlocks (some s.cursor.column)).token? x rest
      read? fuel s

end Layout

/--
The tokens of a text. A mark of the byte order may stand in front.
-/
def tokens? (text : String) : Option (List Token) :=
  let cs := match text.toList with
    | c :: cs => if c.toNat = 0xFEFF then cs else c :: cs
    | [] => []
  if cs.all isAllowed then Layout.read? (cs.length + 1) { cursor := { rest := cs } } else none

end Runbook.Yaml
