import Runbook.Contract.Artifact
import Runbook.Entries

/-!
This module contains the compiling of Solidity sources: how the compiler is run, and how its output
is read.
-/

namespace Runbook

/--
A compiler as seen through `ω`. It is given a source and the number of runs to optimize for, and
answers with contracts by name.
-/
structure Compiler (ω : Type) where
  compile : (source : String) → (runs : Option Nat) → ω → Result (Entries Build) × ω

structure CompilerRun where
  success : Bool
  output : String
  errors : String
deriving Repr

namespace Compiler

def arguments (source : String) (runs : Option Nat) : List String :=
  let optimize := match runs with
    | some n => ["--optimize", "--optimize-runs", toString n]
    | none => []
  ["--combined-json", "bin,abi"] ++ optimize ++ [source]

def contractName (key : String) : String :=
  String.ofList (key.toList.reverse.takeWhile (· != ':')).reverse

/--
The interface and the bytecode of a contract. Compilers of old write the interface as a text.
-/
def build (name : String) (abi : Json) (code : String) : Result Build :=
  let interface? := match abi with
    | .string text => (Json.parse? text).bind Abi.Interface.ofJson?
    | j => Abi.Interface.ofJson? j
  match interface? with
  | none => fail .compilation ("abi of " ++ name ++ " is malformed")
  | some interface =>
    match Text.unhex? (Text.trim code) with
    | none => fail .compilation ("bytecode of " ++ name ++ " is not hex")
    | some bytecode => pure { interface, bytecode }

def entry? (j : Json) : Option (Json × String) := do
  let fields ← j.record? ["abi", "bin"]
  let abi ← fields.lookup "abi"
  match fields.lookup "bin" with
  | none => return (abi, "")
  | some bin => return (abi, ← bin.string?)

def entries? (output : String) : Option (Entries (Json × String)) := do
  let fields ← (← Json.parse? output).record? ["contracts"]
  match fields.lookup "contracts" with
  | some (.object contracts) =>
    contracts.foldlM (fun entries (key, j) => do return Entries.set entries key (← entry? j)) []
  | _ => none

/--
The contracts in an output by name. Of two with one name the last counts.
-/
def contracts (output : String) : Result (Entries Build) :=
  match entries? output with
  | none => fail .compilation "unexpected compiler output"
  | some entries =>
    entries.foldlM (fun built (key, abi, code) => do
      let name := contractName key
      return Entries.set built name (← build name abi code)) []

def contractsOfRun (path source : String) : Option CompilerRun → Result (Entries Build)
  | none => fail .compilation ("unable to run " ++ path)
  | some run =>
    if run.success then contracts run.output
    else
      fail .compilation (path ++ " failed on " ++ source ++ ": " ++ Text.trim run.errors)

end Compiler

end Runbook
