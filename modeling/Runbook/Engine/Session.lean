import Runbook.Engine.Await
import Runbook.Plan.Basic

/-!
This module contains sessions: the running of a plan's commands one after the other.
-/

namespace Runbook

variable {ω α : Type}

structure Host (ω : Type) where
  node : Node ω
  keyring : Keyring ω
  policy : AwaitPolicy
  cancel : Option Cancel := none

structure Session (ω : Type) where
  plan : Plan
  trace : Trace ω
  /-- The instances that were asked for their token symbol. -/
  probed : List Nat := []

structure Outcome where
  command : String
  wallet : Option (String × Address) := none
  result : Result Json
  /-- The transaction that was sent. -/
  transaction : Option Hash := none

def Outcome.isOk (o : Outcome) : Bool :=
  match o.result with
  | .ok _ => true
  | .error _ => false

namespace Session

def onTrace (a : StateM (Trace ω) α) : StateM (Session ω) α := fun s =>
  let (x, trace) := a s.trace
  (x, { s with trace })

def write (level : Level) (text : String) : StateM (Session ω) Unit :=
  onTrace (Trace.write level text)

def note (level : Level) (text : String) : Action (Session ω) Unit :=
  Action.perform (write level text)

def ask (host : Host ω) (r : Request) : Action (Session ω) r.Answer :=
  ExceptT.mk (onTrace (Trace.ask host.node r).run)

def modifyPlan (f : Plan → Plan) : StateM (Session ω) Unit :=
  modify fun s => { s with plan := f s.plan }

def modifyCatalogue (f : Catalogue → Catalogue) : StateM (Session ω) Unit :=
  modifyPlan fun p => { p with catalogue := f p.catalogue }

def reads (f : Plan → Result α) : Action (Session ω) α := do
  Action.ofResult (f (← get).plan)

end Session

def Plan.finalize (p : Plan) (command : String) (params : List Slot) (args : List String)
    (sender : Option Address) : Result (List Value) :=
  params.mapM fun slot =>
    slot.finalize { command, args, wallets := p.wallets.directory, sender }

def Catalogue.label (c : Catalogue) (id : Nat) : String :=
  ((c.instance? id).map Instance.label).getD ""

end Runbook
