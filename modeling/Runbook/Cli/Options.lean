/-!
This module contains the options of the command line.
-/

namespace Runbook

structure Options where
  file : String := "ethereum-playbook.yml"
  solc : String := "solc"
  group : String := "genesis"
  list : Bool := false
  /-- The command or target to run. -/
  name : Option String := none
  args : List String := []
deriving Repr, DecidableEq

inductive UsageFault where
  | unknownArgument
  /-- An option lacks its value. -/
  | invalidValue
  /-- A flag has a value. -/
  | tooManyValues
  /-- An option is given twice. -/
  | argumentConflict
  | displayHelp
  | displayVersion
deriving Repr, DecidableEq

namespace Options

inductive Setting where
  | file
  | solc
  | group
deriving Repr, DecidableEq

inductive Switch where
  | setting (s : Setting)
  | list
  | help
  | version
deriving Repr, DecidableEq

def ofLetter? (c : Char) : Option Switch :=
  match c with
  | 'f' => some (.setting .file)
  | 's' => some (.setting .solc)
  | 'g' => some (.setting .group)
  | 'h' => some .help
  | 'V' => some .version
  | _ => none

def ofName? (name : String) : Option Switch :=
  match name with
  | "file" => some (.setting .file)
  | "solc" => some (.setting .solc)
  | "group" => some (.setting .group)
  | "list" => some .list
  | "help" => some .help
  | "version" => some .version
  | _ => none

structure Progress where
  options : Options := {}
  given : List Setting := []
  pending : Option (Setting × Option String) := none
deriving Repr

def set (o : Options) (s : Setting) (value : String) : Options :=
  match s with
  | .file => { o with file := value }
  | .solc => { o with solc := value }
  | .group => { o with group := value }

namespace Progress

def take (p : Progress) (s : Setting) (value : String) : Except UsageFault Progress :=
  if p.given.contains s then throw .argumentConflict
  else return { p with options := p.options.set s value, given := s :: p.given }

def settle (p : Progress) : Except UsageFault Progress :=
  match p.pending with
  | none => return p
  | some (_, none) => throw .invalidValue
  | some (s, some value) => take { p with pending := none } s value

def switch (p : Progress) (s : Switch) (attached : Option String) : Except UsageFault Progress :=
  match s, attached with
  | .setting s, some value => do (← p.settle).take s value
  | .setting s, none => return { ← p.settle with pending := some (s, none) }
  | _, some _ => throw .tooManyValues
  | .list, none => do
    let p ← p.settle
    if p.options.list then throw .argumentConflict
    else return { p with options := { p.options with list := true } }
  | .help, none => do
    let _ ← p.settle
    throw .displayHelp
  | .version, none => do
    let _ ← p.settle
    throw .displayVersion

/--
Read letters behind a hyphen. A letter that takes a value takes the rest, with or without `=`.
-/
def letters (p : Progress) : List Char → Except UsageFault Progress
  | [] => return p
  | c :: cs =>
    match ofLetter? c with
    | none => throw .unknownArgument
    | some (.setting s) =>
      match cs with
      | [] => p.switch (.setting s) none
      | '=' :: value => p.switch (.setting s) (some (String.ofList value))
      | value => p.switch (.setting s) (some (String.ofList value))
    | some s => do letters (← p.switch s none) cs

def word (p : Progress) (cs : List Char) : Except UsageFault Progress :=
  match ofName? (String.ofList (cs.takeWhile (· != '='))) with
  | none => throw .unknownArgument
  | some s =>
    match cs.dropWhile (· != '=') with
    | [] => p.switch s none
    | _ :: value => p.switch s (some (String.ofList value))

def finish (p : Progress) (names : List String) : Except UsageFault Options := do
  let p ← p.settle
  match p.options.name, names with
  | none, name :: args => return { p.options with name := some name, args }
  | none, [] => return p.options
  | some _, args => return { p.options with args }

def isKnown (cs : List Char) : Bool :=
  match cs with
  | '-' :: '-' :: name => (ofName? (String.ofList (name.takeWhile (· != '=')))).isSome
  | '-' :: c :: cs => (c :: cs).all fun c => (ofLetter? c).isSome
  | _ => false

/--
Read a command line from the left. Behind two bare hyphens there are no options, nor behind the
first argument of what is run.
-/
def read (p : Progress) : List String → Except UsageFault Options
  | [] => p.finish []
  | arg :: rest =>
    let named := p.options.name.isSome
    match arg.toList, p.pending with
    | ['-', '-'], _ => p.finish rest
    | '-' :: c :: cs, pending =>
      -- Behind the name, what is no option of the program is an argument.
      if named && !isKnown ('-' :: c :: cs) then
        match pending with
        | some (s, none) => read { p with pending := some (s, some arg) } rest
        | _ => p.finish (arg :: rest)
      else if c = '-' then do read (← p.word cs) rest
      else do read (← p.letters (c :: cs)) rest
    | _, some (s, none) => read { p with pending := some (s, some arg) } rest
    | _, _ => do
      let p ← p.settle
      if named then p.finish (arg :: rest)
      else read { p with options := { p.options with name := some arg } } rest

end Progress

def parse (args : List String) : Except UsageFault Options :=
  Progress.read {} args

end Options

end Runbook
