import Runbook.Abi.Interface
import Runbook.Fault
import Runbook.Files.Basic
import Runbook.Json.Reader
import Runbook.Text.Blank

/-!
This module contains artifacts: contracts that a build tool has left behind, as interface and
bytecode.
-/

namespace Runbook

structure Build where
  interface : Abi.Interface
  bytecode : Bytes
deriving Repr

namespace Artifact

def codeText? : Json → Option String
  | .string s => some s
  | j => do (← (← j.record? ["object"]).lookup "object").string?

def parts? (j : Json) : Option (Abi.Interface × String) := do
  let fields ← j.record? ["abi", "bytecode"]
  let interface ← Abi.Interface.ofJson? (← fields.lookup "abi")
  match fields.lookup "bytecode" with
  | none | some .null => return (interface, "")
  | some code => return (interface, ← codeText? code)

def load (files : Files) (path : Path) : Result Build :=
  match files.read? path with
  | none => fail .compilation ("unable to read artifact " ++ path.text)
  | some text =>
    match (Json.parse? text).bind parts? with
    | none => fail .compilation ("artifact " ++ path.text ++ " has wrong format")
    | some (interface, code) =>
      match Text.unhex? (Text.trim code) with
      | none => fail .compilation ("artifact " ++ path.text ++ " bytecode is not hex")
      | some bytecode => pure { interface, bytecode }

end Artifact

end Runbook
