import Runbook.Engine.Cancel
import Runbook.Node.Trace
import Runbook.Number.Duration

/-!
This module contains the wait for a transaction: the node is polled until it has a receipt, the time
is over or the wait is cancelled.
-/

namespace Runbook

variable {ω : Type}

structure AwaitPolicy where
  interval : Duration := .ofSeconds 1
  /-- The interval after a query that failed. -/
  errorInterval : Duration := .ofSeconds 10
  timeout : Duration := .ofSeconds 600
deriving Repr, DecidableEq

inductive Poll where
  | pending
  | failed (kind : FaultKind)
  | mined (receipt : Receipt)
deriving Repr, DecidableEq

namespace Poll

def once (node : Node ω) (hash : Hash) : StateM (Trace ω) Poll := do
  match ← (Trace.ask node (.status hash)).outcome with
  | .error e => return .failed e.kind
  | .ok none | .ok (some Status.pending) => return .pending
  | .ok (some Status.settled) =>
    match ← (Trace.ask node (.receipt hash)).outcome with
    | .error e => return .failed e.kind
    | .ok none => return .pending
    | .ok (some r) => return .mined r

theorem le_clock_once (node : Node ω) (hash : Hash) (t : Trace ω)
    : t.clock ≤ (once node hash t).2.clock := by
  have hstatus := Trace.le_clock_ask node (.status hash) t
  unfold once
  simp only [bind, StateT.bind, Action.outcome]
  generalize (Trace.ask node (.status hash)).run t = asked at hstatus ⊢
  match asked with
  | (.error e, _) => exact hstatus
  | (.ok none, _) => exact hstatus
  | (.ok (some .pending), _) => exact hstatus
  | (.ok (some .settled), t₁) =>
    have hreceipt := Trace.le_clock_ask node (.receipt hash) t₁
    apply Nat.le_trans hstatus
    simp only [StateT.bind]
    generalize (Trace.ask node (.receipt hash)).run t₁ = asked' at hreceipt ⊢
    match asked' with
    | (.error e, _) => exact hreceipt
    | (.ok none, _) => exact hreceipt
    | (.ok (some r), _) => exact hreceipt

def interval (policy : AwaitPolicy) : Poll → Duration
  | failed _ => policy.errorInterval
  | _ => policy.interval

def blockText : Option Nat → String
  | some n => "Some(" ++ toString n ++ ")"
  | none => "None"

def logLine (hash : Hash) : Poll → Level × String
  | pending => (.info, "transaction " ++ hash.text ++ " is pending")
  | failed kind =>
    (.warn, "failed to query transaction " ++ hash.text ++ ", backing off: " ++ kind.name)
  | mined r =>
    if r.success then
      (.info, "transaction " ++ hash.text ++ " mined in block " ++ blockText r.block)
    else
      (.error, "transaction " ++ hash.text ++ " reverted")

end Poll

def waitFault (hash : Hash) (failure : WaitFailure) : Fault :=
  { kind := .confirmation failure, transaction := some hash.text }

/--
How many polls in a row may take no time at all.
-/
def maxBurst : Nat := 2 ^ 16

/--
The next poll after one from `begun` to `now`: its time, what can still cancel, and how many more
polls may follow at the same time. When these are used up, the smallest unit of time passes.
-/
def nextPoll (begun now limit : Nat) (cancel : Option Cancel) (burst : Nat) :
    Nat × Option Cancel × Nat :=
  let wake := Wake.after now limit cancel
  if wake.signalled ∨ begun < wake.time then (wake.time, wake.cancel, maxBurst)
  else
    match burst with
    | 0 => (wake.time + 1, wake.cancel, maxBurst)
    | burst + 1 => (wake.time, wake.cancel, burst)

theorem nextPoll_lex (deadline begun now limit : Nat) (cancel : Option Cancel) (burst : Nat)
    (hbegun : begun < deadline) (hnow : begun ≤ now) (hlimit : now ≤ limit) :
    Prod.Lex (· < ·) (Prod.Lex (· < ·) (· < ·))
      (deadline - (nextPoll begun now limit cancel burst).1,
        Cancel.pending (nextPoll begun now limit cancel burst).2.1,
        (nextPoll begun now limit cancel burst).2.2)
      (deadline - begun, Cancel.pending cancel, burst) := by
  have hle := Wake.le_time now limit cancel hlimit
  have hpending := Wake.pending_le now limit cancel
  by_cases h : (Wake.after now limit cancel).signalled ∨ begun < (Wake.after now limit cancel).time
  . simp only [nextPoll, h, if_true]
    by_cases hlt : begun < (Wake.after now limit cancel).time
    . exact Prod.Lex.left _ _ (by omega)
    . have heq : (Wake.after now limit cancel).time = begun := by omega
      have hs : (Wake.after now limit cancel).signalled := by simpa [hlt] using h
      rw [heq]
      exact Prod.Lex.right _ (Prod.Lex.left _ _ (Wake.pending_lt now limit cancel hs))
  . simp only [nextPoll, h, if_false]
    have heq : (Wake.after now limit cancel).time = begun := by omega
    rw [heq]
    cases burst with
    | zero =>
      dsimp only
      exact Prod.Lex.left _ _ (by omega)
    | succ burst =>
      apply Prod.Lex.right
      rcases Nat.lt_or_eq_of_le hpending with hlt | heq
      . exact Prod.Lex.left _ _ hlt
      . dsimp only
        rw [heq]
        exact Prod.Lex.right _ (Nat.lt_succ_self _)

/--
The end of a pause that begins at `now`. It does not go beyond the deadline, which may be over.
-/
def pauseEnd (now interval deadline : Nat) : Nat :=
  max now (min (now + interval) deadline)

def awaitFrom (node : Node ω) (policy : AwaitPolicy) (hash : Hash) (deadline : Nat)
    (cancel : Option Cancel) (burst : Nat) (t : Trace ω) : Result Receipt × Trace ω :=
  -- The flag is looked at before the clock, and the clock before the node.
  if cancel.any (·.reads t.clock) then
    (.error (waitFault hash .cancelled),
      ((Trace.write .warn ("stopped waiting for transaction " ++ hash.text)) t).2)
  else if _h : deadline ≤ t.clock then
    (.error (waitFault hash .timedOut),
      ((Trace.write .error ("timed out waiting for transaction " ++ hash.text)) t).2)
  else
    let polled := Poll.once node hash t
    let (level, line) := polled.1.logLine hash
    let noted := (Trace.write level line polled.2).2
    match polled.1 with
    | .mined r =>
      if r.success then (.ok r, noted) else (.error (waitFault hash .reverted), noted)
    | poll =>
      let limit := pauseEnd polled.2.clock (poll.interval policy).nanos deadline
      let next := nextPoll t.clock polled.2.clock limit cancel burst
      awaitFrom node policy hash deadline next.2.1 next.2.2 { noted with clock := next.1 }
termination_by (deadline - t.clock, Cancel.pending cancel, burst)
decreasing_by
  exact nextPoll_lex _ _ _ _ _ _ (by omega) (Poll.le_clock_once node hash t) (Nat.le_max_left ..)

def await (node : Node ω) (policy : AwaitPolicy) (cancel : Option Cancel) (hash : Hash) :
    Action (Trace ω) Receipt :=
  ExceptT.mk fun t =>
    awaitFrom node policy hash (t.clock + policy.timeout.nanos) cancel maxBurst t

end Runbook
