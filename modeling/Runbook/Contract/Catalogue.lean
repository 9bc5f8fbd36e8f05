import Runbook.Contract.Artifact
import Runbook.Document.Basic
import Runbook.Text.Casing

/-!
This module contains the contracts of a playbook: their types, and the instances of these that
commands work on.
-/

namespace Runbook

/--
One deployment of a contract, or the place for one. Instances of a command's own have no name.
-/
structure Instance where
  name : Option String
  contract : String
  address : Option Address
  /-- The token symbol that the contract has told, in capital letters. -/
  symbol : Option String := none
deriving Repr, DecidableEq

namespace Instance

/--
An instance at the zero address is not deployed either.
-/
def isDeployed (i : Instance) : Bool :=
  i.address.any (!·.isZero)

def deployed? (i : Instance) : Option Address :=
  i.address.filter (!·.isZero)

def label (i : Instance) : String :=
  i.name.getD ("<" ++ i.contract ++ ">")

/--
The address of a declaration. An empty one is none.
-/
def addressOf (text? : Option String) : Result (Option Address) :=
  match text? with
  | none => pure none
  | some text =>
    let text := Text.trim text
    if text.isEmpty then pure none
    else
      match Address.parse? text with
      | some a => pure (some a)
      | none => fail .validation ("instance address '" ++ text ++ "' is not valid")

theorem isDeployed_eq (i : Instance) : i.isDeployed = i.deployed?.isSome := by
  simp only [isDeployed, deployed?]
  cases i.address with
  | none => rfl
  | some a => by_cases h : a.isZero <;> simp [h]

end Instance

structure Catalogue where
  builds : Entries Build := []
  instances : List Instance := []
deriving Repr

namespace Catalogue

def instance? (c : Catalogue) (id : Nat) : Option Instance :=
  c.instances[id]?

def ids (c : Catalogue) : List Nat :=
  List.range c.instances.length

def findNamed? (c : Catalogue) (name : String) : Option Nat :=
  c.instances.findIdx? (·.name == some name)

def findSymbol? (c : Catalogue) (symbol : String) : Option Nat :=
  c.instances.findIdx? fun i => i.symbol.any (Text.eqIgnoringAsciiCase symbol)

def symbols (c : Catalogue) : List String :=
  (c.instances.filterMap Instance.symbol).map Text.lower

def buildOf (c : Catalogue) (id : Nat) : Result Build :=
  match c.instance? id with
  | none => fail .validation ("unknown contract instance #" ++ toString id)
  | some i =>
    match c.builds.find? i.contract with
    | some b => pure b
    | none =>
      fail .validation ("instance " ++ i.label ++ " references unknown contract '" ++ i.contract
        ++ "'")

def add (c : Catalogue) (i : Instance) : Nat × Catalogue :=
  (c.instances.length, { c with instances := c.instances ++ [i] })

def modify (c : Catalogue) (id : Nat) (f : Instance → Instance) : Catalogue :=
  { c with instances := c.instances.modify id f }

def setAddress (c : Catalogue) (id : Nat) (a : Option Address) : Catalogue :=
  c.modify id fun i => { i with address := a }

def setSymbol (c : Catalogue) (id : Nat) (symbol : Option String) : Catalogue :=
  c.modify id fun i => { i with symbol }

/--
The instance that a command refers to. One of its own is added to the catalogue.
-/
def bind (c : Catalogue) : InstanceRef → Result (Nat × Catalogue)
  | .named name =>
    match c.findNamed? name with
    | some id => pure (id, c)
    | none => fail .validation ("unknown contract instance '" ++ name ++ "'")
  | .inline contract address => do
    if !c.builds.contains contract then
      fail .validation ("instance references unknown contract '" ++ contract ++ "'")
    else
      let address ← Instance.addressOf address
      return c.add { name := none, contract, address }

end Catalogue

end Runbook
