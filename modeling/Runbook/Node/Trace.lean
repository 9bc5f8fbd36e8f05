import Runbook.Node.Request

/-!
This module contains traces: the outside world together with what the program has asked it and noted
down.
-/

namespace Runbook

inductive Level where
  | error
  | warn
  | info
deriving Repr, DecidableEq

def Level.text : Level → String
  | error => "ERROR"
  | warn => "WARN"
  | info => "INFO"

structure LogLine where
  level : Level
  text : String
deriving Repr, DecidableEq

/--
The newest exchange and the newest line of the log stand first. The clock counts nanoseconds.
-/
structure Trace (ω : Type) where
  world : ω
  clock : Nat := 0
  exchanges : List Exchange := []
  log : List LogLine := []

abbrev Action (σ α : Type) := ExceptT Fault (StateM σ) α

namespace Action

variable {σ α : Type}

def ofResult (r : Result α) : Action σ α :=
  ExceptT.mk (pure r)

def perform (a : StateM σ α) : Action σ α :=
  ExceptT.lift a

def outcome (a : Action σ α) : StateM σ (Result α) :=
  a.run

def mapError (f : Fault → Fault) (a : Action σ α) : Action σ α :=
  ExceptT.mk do return (← a.run).mapError f

def attach (note : String) (a : Action σ α) : Action σ α :=
  mapError (Report.attach note) a

def located (place entry : String) (a : Action σ α) : Action σ α :=
  mapError (Report.locate place entry) a

def fail (kind : FaultKind) (note : String) : Action σ α :=
  ofResult (Runbook.fail kind note)

end Action

namespace Trace

variable {ω α : Type}

def outside (f : ω → α × ω) : StateM (Trace ω) α := fun t =>
  let (a, world) := f t.world
  (a, { t with world })

def write (level : Level) (text : String) : StateM (Trace ω) Unit := fun t =>
  ((), { t with log := ⟨level, text⟩ :: t.log })

def ask (node : Node ω) (r : Request) : Action (Trace ω) r.Answer :=
  ExceptT.mk fun t =>
    let (answer, world) := node.ask r t.world
    (answer,
      { t with
          world
          clock := t.clock + node.delay r t.world
          exchanges := ⟨t.clock, r, answer⟩ :: t.exchanges })

theorem le_clock_ask (node : Node ω) (r : Request) (t : Trace ω)
    : t.clock ≤ ((ask node r).run t).2.clock :=
  Nat.le_add_right ..

end Trace

end Runbook
