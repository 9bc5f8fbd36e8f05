import Runbook.Cli.Reads

/-!
This module contains the command line program. It reads files, prints and sets the exit code; what
it does is decided elsewhere. There is no transport to nodes and no way to run a compiler here, so
playbooks with artifacts can be checked and listed.
-/

namespace Runbook.Main

/--
What the program has printed, newest first, and the keys that it has opened.
-/
structure Console where
  lines : List String := []
  keystore : Keystore := {}

def keyring (files : Files) : Keyring Console where
  register a path c := { c with keystore := c.keystore.register a path }
  unregister a path c := { c with keystore := c.keystore.unregister a path }
  unlock a password c :=
    let (unlock, keystore) := c.keystore.unlock files a password
    (unlock, { c with keystore })

def program (files : Files) (o : Options) : Program Console where
  files
  keyring := keyring files
  compiler := ⟨fun source _ c => (Compiler.contractsOfRun o.solc source none, c)⟩
  network := ⟨fun url c => (fail .network ("no transport to " ++ url), c)⟩
  print line c := { c with lines := line :: c.lines }

def usage : String :=
  "Runs commands and targets of an Ethereum playbook\n\n"
    ++ "Usage: runbook [OPTIONS] [NAME] [ARGS]...\n\n"
    ++ "Options:\n"
    ++ "  -f, --file <FILE>    Path to the playbook [default: ethereum-playbook.yml]\n"
    ++ "  -s, --solc <SOLC>    Path to the Solidity compiler [default: solc]\n"
    ++ "  -g, --group <GROUP>  Inventory group to pick a node from [default: genesis]\n"
    ++ "      --list           List commands and targets with the number of arguments they take\n"
    ++ "  -h, --help           Print help\n"
    ++ "  -V, --version        Print version"

def usageText : UsageFault → String
  | .displayHelp => usage
  | .displayVersion => "runbook"
  | .unknownArgument => "error: unexpected argument found\n\n" ++ usage
  | .invalidValue => "error: a value is required but none was supplied\n\n" ++ usage
  | .tooManyValues => "error: unexpected value found\n\n" ++ usage
  | .argumentConflict => "error: an option cannot be used multiple times\n\n" ++ usage

def readFile (files : Files) (path : Path) : IO Files := do
  try
    return files.add path (← IO.FS.readFile path.text)
  catch _ =>
    return files

def readFolder (files : Files) (path : Path) : IO Files := do
  let here ← IO.currentDir
  try
    let members ← (here / path.text).readDir
    members.foldlM (fun files m => readFile files (path.join ⟨m.fileName⟩)) (files.addFolder path)
  catch _ =>
    return files

def readAll (files : Files) (r : Reads) : IO Files := do
  r.folders.foldlM readFolder (← r.files.foldlM readFile files)

def filesFor (path : Path) : IO Files := do
  let here ← IO.currentDir
  let start : Files := { here := here.components.filter (!·.isEmpty) }
  let files ← readFile start path
  match Document.load files path with
  | .ok d => readAll files (Reads.ofDocument path.base d)
  | .error _ => return files

def runOptions (o : Options) : IO UInt32 := do
  let files ← filesFor ⟨o.file⟩
  let (answer, trace) := ((program files o).run o).run { world := ({} : Console) }
  for line in trace.log.reverse do
    IO.eprintln (line.level.text ++ " " ++ line.text)
  for line in trace.world.lines.reverse do
    IO.println line
  match answer with
  | .ok true => return 0
  | .ok false => return 1
  | .error e =>
    IO.eprintln ("ERROR " ++ e.message)
    return 1

end Runbook.Main

def main (args : List String) : IO UInt32 := do
  match Runbook.Options.parse args with
  | .ok o => Runbook.Main.runOptions o
  | .error e =>
    IO.println (Runbook.Main.usageText e)
    return 1
