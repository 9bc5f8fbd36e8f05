import Runbook.Files.Path

/-!
This module contains collections of files, as far as a playbook reads them.
-/

namespace Runbook

/--
Texts of files by the names that lead to them from the root, and folders that exist even if they are
empty. Relative paths start at `here`.
-/
structure Files where
  contents : List (List String × String) := []
  folders : List (List String) := []
  here : List String := []
deriving Repr

namespace Files

def isFolder (fs : Files) (place : List String) : Bool :=
  place.isEmpty || fs.folders.any (place.isPrefixOf ·)
    || fs.contents.any fun (names, _) => place.isPrefixOf names && place != names

def walk (fs : Files) (place : List String) : List String → Option (List String)
  | [] => some place
  | s :: ss =>
    if fs.isFolder place then
      if Path.isIdle s then walk fs place ss
      else if s == ".." then walk fs place.dropLast ss
      else walk fs (place ++ [s]) ss
    else none

def locate? (fs : Files) (p : Path) : Option (List String) :=
  if p.isAbsolute then fs.walk [] (p.segments.drop 1) else fs.walk fs.here p.segments

def places (place : List String) : List String → List (List String)
  | [] => [place]
  | s :: ss =>
    let next :=
      if Path.isIdle s then place
      else if s == ".." then place.dropLast
      else place ++ [s]
    places next ss ++ [place]

def add (fs : Files) (p : Path) (text : String) : Files :=
  let places :=
    if p.isAbsolute then places [] (p.segments.drop 1) else places fs.here p.segments
  match places with
  | [] => fs
  | place :: through =>
    { fs with contents := fs.contents ++ [(place, text)], folders := fs.folders ++ through }

def addFolder (fs : Files) (p : Path) : Files :=
  let through :=
    if p.isAbsolute then places [] (p.segments.drop 1) else places fs.here p.segments
  { fs with folders := fs.folders ++ through }

def read? (fs : Files) (p : Path) : Option String :=
  (fs.locate? p).bind fun place => List.lookup place fs.contents

def isFile (fs : Files) (p : Path) : Bool :=
  (fs.read? p).isSome

def inFolder? (fs : Files) (folder : Path) : Option (List Path) :=
  match fs.locate? folder with
  | none => none
  | some place =>
    if fs.isFolder place then
      some (fs.contents.filterMap fun (names, _) =>
        match names.getLast? with
        | some name => if place ++ [name] == names then some (folder.join ⟨name⟩) else none
        | none => none)
    else none

def remove (fs : Files) (p : Path) : Files :=
  match fs.locate? p with
  | some place => { fs with contents := fs.contents.filter (·.1 != place) }
  | none => fs

end Files

structure Shelf where
  files : Files
  base : Path
deriving Repr

end Runbook
