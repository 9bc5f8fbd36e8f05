/-!
This module contains paths of files.
-/

namespace Runbook

structure Path where
  text : String
deriving Repr, DecidableEq

namespace Path

def splitSlashes : List Char → List (List Char)
  | [] => [[]]
  | c :: cs =>
    if c = '/' then [] :: splitSlashes cs
    else
      match splitSlashes cs with
      | [] => [[c]]
      | s :: ss => (c :: s) :: ss

def segments (p : Path) : List String :=
  (splitSlashes p.text.toList).map String.ofList

def ofSegments (ss : List String) : Path :=
  ⟨"/".intercalate ss⟩

def isAbsolute (p : Path) : Bool :=
  p.text.toList.head? == some '/'

/--
The path `q` as seen from `p`; an absolute one is the same from everywhere.
-/
def join (p q : Path) : Path :=
  if q.isAbsolute then q
  else if p.text.isEmpty || p.text.toList.getLast? == some '/' then ⟨p.text ++ q.text⟩
  else ⟨p.text ++ "/" ++ q.text⟩

def isIdle (s : String) : Bool :=
  s == "" || s == "."

def names (p : Path) : Bool × List String :=
  match p.segments with
  | [] => (false, [])
  | s :: ss => (p.isAbsolute, (if s == "" then [] else [s]) ++ ss.filter (!isIdle ·))

def dropIdle : List String → List String
  | s :: t :: ss => if isIdle s then dropIdle (t :: ss) else s :: t :: ss
  | ss => ss

def parent? (p : Path) : Option Path :=
  match dropIdle p.segments.reverse with
  | [] => none
  | [s] => if s == "" then none else some ⟨""⟩
  | _ :: ss =>
    match dropIdle ss with
    | [""] => some ⟨"/"⟩
    | ss => some (ofSegments ss.reverse)

def fileName? (p : Path) : Option String :=
  match p.names.2.getLast? with
  | some s => if s == ".." || s == "." then none else some s
  | none => none

end Path

end Runbook
