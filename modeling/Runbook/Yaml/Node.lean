import Runbook.Entries
import Runbook.Yaml.Layout

/-!
This module contains the nodes of YAML documents and how tokens make them up.
-/

namespace Runbook.Yaml

/--
A node with its tag, if it has one. What an alias names is part of the node.
-/
inductive Node where
  | scalar (text : String) (style : Style) (tag : Option String)
  | seq (items : List Node) (tag : Option String)
  | map (pairs : List (Node × Node)) (tag : Option String)
deriving Repr, Inhabited

namespace Node

def absent (tag : Option String) : Node :=
  scalar "" .plain tag

end Node

structure Source where
  tokens : List Token
  anchors : Entries Node := []
  handles : Entries String := [("!", "!"), ("!!", "tag:yaml.org,2002:")]

abbrev Build := StateT Source Option

namespace Build

def peek : Build (Option Token) := do
  return (← get).tokens.head?

def skip : Build Unit :=
  modify fun s => { s with tokens := s.tokens.drop 1 }

def expect (t : Token) : Build Unit := do
  if (← peek) = some t then skip else failure

def sees (ts : List Token) : Build Bool := do
  return (← peek).any ts.contains

def resolveTag (handle suffix : String) : Build String := do
  if handle.isEmpty then return suffix
  else
    match (← get).handles.find? handle with
    | some expansion => return expansion ++ suffix
    | none => failure

def properties : Build (Option String × Option String) := do
  match ← peek with
  | some (.anchor name) =>
    skip
    match ← peek with
    | some (.tag handle suffix) =>
      skip
      return (some name, some (← resolveTag handle suffix))
    | _ => return (some name, none)
  | some (.tag handle suffix) =>
    skip
    match ← peek with
    | some (.anchor name) =>
      skip
      return (some name, some (← resolveTag handle suffix))
    | _ => return (none, some (← resolveTag handle suffix))
  | _ => return (none, none)

mutual

/--
A node. Blocks are allowed where `block` says so, and sequences without an indentation of their own
where `loose` says so.
-/
def node (block loose : Bool) : Nat → Build Node
  | 0 => failure
  | fuel + 1 => do
    match ← peek with
    | some (.alias name) =>
      skip
      match (← get).anchors.find? name with
      | some n => return n
      | none => failure
    | _ =>
      let (anchor, tag) ← properties
      let n ← content block loose (anchor.isSome || tag.isSome) tag fuel
      match anchor with
      | some name => modify fun s => { s with anchors := s.anchors.set name n }
      | none => pure ()
      return n

/--
A node behind its anchor and tag. It can be left out if it has one of them.
-/
def content (block loose marked : Bool) (tag : Option String) : Nat → Build Node
  | 0 => failure
  | fuel + 1 => do
    match ← peek with
    | some (.scalar text style) =>
      skip
      return .scalar text style tag
    | some .openSeq =>
      skip
      return .seq (← flowItems true fuel) tag
    | some .openMap =>
      skip
      return .map (← flowPairs true fuel) tag
    | some .dash => if loose then return .seq (← looseItems fuel) tag else absent
    | some .openBlockSeq =>
      if block then
        skip
        return .seq (← blockItems fuel) tag
      else absent
    | some .openBlockMap =>
      if block then
        skip
        return .map (← blockPairs fuel) tag
      else absent
    | _ => absent
where
  absent : Build Node := if marked then pure (.absent tag) else failure

def nodeUnless (ends : List Token) (block loose : Bool) : Nat → Build Node
  | 0 => failure
  | fuel + 1 => do if ← sees ends then return .absent none else node block loose fuel

def blockItems : Nat → Build (List Node)
  | 0 => failure
  | fuel + 1 => do
    match ← peek with
    | some .dash =>
      skip
      -- A dash with nothing behind it is an item without a value.
      let n ← nodeUnless [.dash, .closeBlock] true false fuel
      return n :: (← blockItems fuel)
    | some .closeBlock =>
      skip
      return []
    | _ => failure

def looseItems : Nat → Build (List Node)
  | 0 => failure
  | fuel + 1 => do
    match ← peek with
    | some .dash =>
      skip
      let n ← nodeUnless [.dash, .key, .value, .closeBlock] true false fuel
      return n :: (← looseItems fuel)
    | _ => return []

def blockPairs : Nat → Build (List (Node × Node))
  | 0 => failure
  | fuel + 1 => do
    match ← peek with
    | some .key =>
      skip
      let k ← nodeUnless [.key, .value, .closeBlock] true true fuel
      let v ←
        if ← sees [.value] then
          skip
          nodeUnless [.key, .value, .closeBlock] true true fuel
        else pure (.absent none)
      return (k, v) :: (← blockPairs fuel)
    | some .closeBlock =>
      skip
      return []
    | _ => failure

/--
The rest of a sequence in brackets. An item with a key is a map of one pair.
-/
def flowItems (first : Bool) : Nat → Build (List Node)
  | 0 => failure
  | fuel + 1 => do
    if ← sees [.closeSeq] then
      skip
      return []
    else
      if !first then expect .comma
      if ← sees [.closeSeq] then
        skip
        return []
      else if ← sees [.key] then
        skip
        let k ←
          if ← sees [.value, .comma, .closeSeq] then
            skip
            pure (Node.absent none)
          else node false false fuel
        let v ←
          if ← sees [.value] then
            skip
            nodeUnless [.comma, .closeSeq] false false fuel
          else pure (Node.absent none)
        return .map [(k, v)] none :: (← flowItems false fuel)
      else
        let n ← node false false fuel
        return n :: (← flowItems false fuel)

/--
The rest of a map in braces. A key may do without a value.
-/
def flowPairs (first : Bool) : Nat → Build (List (Node × Node))
  | 0 => failure
  | fuel + 1 => do
    if ← sees [.closeMap] then
      skip
      return []
    else
      if !first then expect .comma
      if ← sees [.closeMap] then
        skip
        return []
      else if ← sees [.key] then
        skip
        let k ← nodeUnless [.value, .comma, .closeMap] false false fuel
        let v ←
          if ← sees [.value] then
            skip
            nodeUnless [.comma, .closeMap] false false fuel
          else pure (Node.absent none)
        return (k, v) :: (← flowPairs false fuel)
      else
        let k ← node false false fuel
        return (k, .absent none) :: (← flowPairs false fuel)

end

/--
The directives in front of a document, which states its version at most once and each handle too.
-/
def directives (versioned : Bool) (defined : List String) : Nat → Build Unit
  | 0 => failure
  | fuel + 1 => do
    match ← peek with
    | some .version =>
      if versioned then failure
      else
        skip
        directives true defined fuel
    | some (.tagHandle handle expansion) =>
      if defined.contains handle then failure
      else
        skip
        modify fun s => { s with handles := s.handles.set handle expansion }
        directives versioned (handle :: defined) fuel
    | _ => return ()

/--
The only document, and nothing behind it. Without one there is no node.
-/
def document : Build (Option Node) := do
  let fuel := 3 * (← get).tokens.length + 3
  match ← peek with
  | none => return none
  | some first =>
    let marked := match first with
      | .version | .tagHandle _ _ | .documentStart => true
      | _ => false
    if marked then
      directives false [] fuel
      expect .documentStart
    let n ← match ← peek with
      | none => pure (Node.absent none)
      | some (.documentStart) | some .documentEnd | some .version | some (.tagHandle _ _) =>
        if marked then pure (Node.absent none) else failure
      | some _ => node true false fuel
    modify fun s => { s with tokens := s.tokens.dropWhile (· == .documentEnd) }
    if (← peek).isSome then failure else return some n

end Build

/--
The node of a text's only document, none if the text has no document.
-/
def document? (text : String) : Option (Option Node) := do
  let tokens ← tokens? text
  let (n, _) ← Build.document.run { tokens }
  return n

end Runbook.Yaml
