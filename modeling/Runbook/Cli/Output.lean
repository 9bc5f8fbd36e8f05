import Runbook.Display.Pretty
import Runbook.Engine.Target
import Runbook.Json.Writer

/-!
This module contains what the command line prints.
-/

namespace Runbook

def Fault.located (f : Fault) : String :=
  match f.site with
  | some (place, entry) => "section " ++ place ++ ", entry '" ++ entry ++ "': " ++ f.summary
  | none => f.summary

/--
The object that shows an outcome. Its fields are sorted by name.
-/
def Outcome.line (o : Outcome) : Json :=
  let address := (o.wallet.map fun (_, a) => ("address", Json.string a.text)).toList
  let wallet := (o.wallet.map fun (name, _) => ("wallet", Json.string ("@" ++ name))).toList
  let shown := match o.result with
    | .ok value => ("result", value.prettify)
    | .error e => ("error", Json.string e.summary)
  .object (address ++ [("command", .string o.command), shown] ++ wallet)

def errorLine (command message : String) : Json :=
  .object [("command", .string command), ("error", .string message)]

def fillTo (width : Nat) (s : String) : String :=
  s ++ String.ofList (List.replicate (width - s.length) ' ')

def Plan.Entry.line (e : Plan.Entry) : String :=
  let kind := match e.kind with
    | some kind => kind.text
    | none => "target"
  fillTo 24 e.name ++ " " ++ fillTo 6 kind ++ " " ++ toString e.arity ++ " arg(s)  "
    ++ e.description.getD ""

end Runbook
