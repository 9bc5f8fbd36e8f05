/-!
This module contains reports: what kind of failure happened, and the notes that were attached to it
on its way out.
-/

namespace Runbook

/--
A failure of kind `kind`. The note that was attached last stands first.
-/
structure Report (κ : Type) where
  kind : κ
  notes : List String := []
  /-- The place in the playbook, section and entry, that the failure was traced to. -/
  site : Option (String × String) := none
  /-- The hash of the transaction that the failure is about. -/
  transaction : Option String := none
deriving Repr, DecidableEq

namespace Report

variable {κ κ' : Type}

def ofNote (kind : κ) (note : String) : Report κ :=
  { kind, notes := [note] }

def attach (note : String) (r : Report κ) : Report κ :=
  { r with notes := note :: r.notes }

def locate (place entry : String) (r : Report κ) : Report κ :=
  { r with site := some (place, entry) }

def about (hash : String) (r : Report κ) : Report κ :=
  { r with transaction := some hash }

def changeKind (kind : κ') (r : Report κ) : Report κ' :=
  { r with kind }

@[simp]
theorem attach_notes (n : String) (r : Report κ) : (r.attach n).notes = n :: r.notes := rfl

def summary (describe : κ → String) (r : Report κ) : String :=
  match r.notes with
  | [] => describe r.kind
  | notes => describe r.kind ++ ": " ++ ": ".intercalate notes

end Report

end Runbook
