import Runbook.Report

/-!
This module contains the kinds of failure that validating and running a playbook can end in.
-/

namespace Runbook

inductive WaitFailure where
  | reverted
  | timedOut
  | cancelled
deriving Repr, DecidableEq

inductive FaultKind where
  /-- The playbook itself is at fault. -/
  | validation
  /-- A reference has no value when its command runs. -/
  | resolution
  | network
  | signer
  | codec
  | compilation
  | confirmation (failure : WaitFailure)
deriving Repr, DecidableEq

def FaultKind.text : FaultKind → String
  | validation => "playbook validation failed"
  | resolution => "unable to resolve value"
  | network => "node request failed"
  | signer => "signer operation failed"
  | codec => "ABI encoding/decoding error"
  | compilation => "contract compilation failed"
  | confirmation .reverted => "transaction was mined but reverted"
  | confirmation .timedOut => "transaction was sent but confirmation timed out"
  | confirmation .cancelled => "transaction was sent but confirmation was cancelled"

def FaultKind.name : FaultKind → String
  | validation => "Validation"
  | resolution => "Resolution"
  | network => "Network"
  | signer => "Signer"
  | codec => "Codec"
  | compilation => "Compilation"
  | confirmation .reverted => "Confirmation(Reverted)"
  | confirmation .timedOut => "Confirmation(TimedOut)"
  | confirmation .cancelled => "Confirmation(Cancelled)"

abbrev Fault := Report FaultKind

abbrev Result := Except Fault

namespace Fault

def summary (f : Fault) : String :=
  Report.summary FaultKind.text f

end Fault

def fail {α : Type} (kind : FaultKind) (note : String) : Result α :=
  throw (.ofNote kind note)

namespace Result

variable {α : Type}

def attach (note : String) (r : Result α) : Result α :=
  r.mapError (Report.attach note)

def changeKind (kind : FaultKind) (r : Except (Report κ) α) : Result α :=
  r.mapError (Report.changeKind kind)

def located (place entry : String) (r : Result α) : Result α :=
  r.mapError (Report.locate place entry)

def about (hash : String) (r : Result α) : Result α :=
  r.mapError (Report.about hash)

end Result

end Runbook
