import Runbook.Proofs.Engine.Event

/-!
This module contains what the wait for a transaction asks the node, and that it ends in success just
if the node had a receipt of success.
-/

namespace Runbook

variable {ω : Type}

def receipt? : Exchange → Option (Hash × Receipt)
  | ⟨_, .receipt hash, .ok (some r)⟩ => some (hash, r)
  | _ => none

def receipts (xs : List Exchange) : List (Hash × Receipt) :=
  xs.filterMap receipt?

theorem receipts_append (xs ys : List Exchange)
    : receipts (xs ++ ys) = receipts xs ++ receipts ys :=
  List.filterMap_append ..

theorem receipts_eq_nil {xs : List Exchange} (h : ∀ x ∈ xs, ∀ hash, x.request ≠ .receipt hash)
    : receipts xs = [] := by
  unfold receipts
  rw [List.filterMap_eq_nil_iff]
  intro x hx
  unfold receipt?
  split
  . exact absurd rfl (h _ hx _)
  . rfl

def Trace.asked (node : Node ω) (r : Request) (t : Trace ω) : Trace ω :=
  ((Trace.ask node r).run t).2

theorem Trace.run_ask {node : Node ω} {r : Request} {t : Trace ω} {answer : Result r.Answer}
    (h : (node.ask r t.world).1 = answer) : (Trace.ask node r).run t = (answer, asked node r t) :=
  Prod.ext h rfl

theorem Trace.exchanges_asked {node : Node ω} {r : Request} {t : Trace ω} {answer : Result r.Answer}
    (h : (node.ask r t.world).1 = answer)
    : (asked node r t).exchanges = ⟨t.clock, r, answer⟩ :: t.exchanges := by
  rw [← h]
  rfl

namespace Poll

def receipt? : Poll → Option Receipt
  | mined r => some r
  | _ => none

theorem receipt?_eq_none {poll : Poll} (h : ∀ r, poll ≠ mined r) : poll.receipt? = none := by
  cases poll with
  | mined r => exact absurd rfl (h r)
  | pending => rfl
  | failed kind => rfl

def ofReceipt : Result (Option Receipt) → Poll
  | .error e => .failed e.kind
  | .ok none => .pending
  | .ok (some r) => .mined r

variable {node : Node ω} {hash : Hash} {t : Trace ω}

theorem once_of_error {e : Fault} (h : (node.ask (.status hash) t.world).1 = .error e)
    : Poll.once node hash t = (.failed e.kind, t.asked node (.status hash)) := by
  unfold once
  simp only [bind, StateT.bind, Action.outcome, Trace.run_ask h]
  rfl

theorem once_of_unsettled {status : Option Status}
    (h : (node.ask (.status hash) t.world).1 = .ok status) (hstatus : status ≠ some .settled)
    : Poll.once node hash t = (.pending, t.asked node (.status hash)) := by
  unfold once
  simp only [bind, StateT.bind, Action.outcome, Trace.run_ask h]
  cases status with
  | none => rfl
  | some status =>
    cases status with
    | pending => rfl
    | settled => exact absurd rfl hstatus

theorem once_of_settled {answer : Result (Option Receipt)}
    (h : (node.ask (.status hash) t.world).1 = .ok (some .settled))
    (hreceipt : (node.ask (.receipt hash) (t.asked node (.status hash)).world).1 = answer)
    : Poll.once node hash t
        =
      (.ofReceipt answer, (t.asked node (.status hash)).asked node (.receipt hash)) := by
  unfold once
  simp only [bind, StateT.bind, Action.outcome, Trace.run_ask h]
  simp only [Trace.run_ask hreceipt]
  cases answer with
  | error e => rfl
  | ok receipt => cases receipt <;> rfl

end Poll

/--
The questions of one poll, the newest first, with the answers that let it come to what it came to,
and the time at which the last of them is there.
-/
inductive Poll.Told (node : Node ω) (hash : Hash) (start : Nat)
    : Poll → Nat → List Exchange → Prop where
  | failed (w : ω) {e : Fault} (h : (node.ask (.status hash) w).1 = .error e)
      : Told node hash start (.failed e.kind) (start + node.delay (.status hash) w)
          [⟨start, .status hash, .error e⟩]
  | unsettled (w : ω) {status : Option Status} (h : (node.ask (.status hash) w).1 = .ok status)
      (hstatus : status ≠ some .settled)
      : Told node hash start .pending (start + node.delay (.status hash) w)
          [⟨start, .status hash, .ok status⟩]
  | settled (w w' : ω) {answer : Result (Option Receipt)}
      (h : node.ask (.status hash) w = (.ok (some .settled), w'))
      (hreceipt : (node.ask (.receipt hash) w').1 = answer)
      : Told node hash start (.ofReceipt answer)
          (start + node.delay (.status hash) w + node.delay (.receipt hash) w')
          [⟨start + node.delay (.status hash) w, .receipt hash, answer⟩,
            ⟨start, .status hash, .ok (some .settled)⟩]

namespace Poll

variable {node : Node ω} {hash : Hash} {start finish : Nat} {poll : Poll} {new : List Exchange}

theorem once_told (node : Node ω) (hash : Hash) (t : Trace ω)
    : ∃ new,
        (once node hash t).2.exchanges = new ++ t.exchanges ∧
        Told node hash t.clock (once node hash t).1 (once node hash t).2.clock new := by
  cases hstatus : (node.ask (.status hash) t.world).1 with
  | error e =>
    rw [once_of_error hstatus]
    exact ⟨_, Trace.exchanges_asked hstatus, .failed t.world hstatus⟩
  | ok status =>
    by_cases hsettled : status = some .settled
    . subst hsettled
      obtain ⟨answer, hanswer⟩ : ∃ answer,
          (node.ask (.receipt hash) (t.asked node (.status hash)).world).1 = answer := ⟨_, rfl⟩
      rw [once_of_settled hstatus hanswer]
      refine ⟨_, ?_, .settled t.world _ (Prod.ext hstatus rfl) hanswer⟩
      rw [Trace.exchanges_asked hanswer, Trace.exchanges_asked hstatus]
      rfl
    . rw [once_of_unsettled hstatus hsettled]
      exact ⟨_, Trace.exchanges_asked hstatus, .unsettled t.world hstatus hsettled⟩

theorem Told.mem (h : Told node hash start poll finish new)
    : ∀ x ∈ new, (x.request = .status hash ∨ x.request = .receipt hash) ∧
        start ≤ x.time ∧ x.time ≤ finish := by
  cases h with
  | failed w h => simp
  | unsettled w h hstatus => simp
  | settled w w' h hreceipt => simp [Nat.add_assoc]

theorem Told.le (h : Told node hash start poll finish new) : start ≤ finish := by
  cases h with
  | failed w h => exact Nat.le_add_right ..
  | unsettled w h hstatus => exact Nat.le_add_right ..
  | settled w w' h hreceipt => exact Nat.le_trans (Nat.le_add_right ..) (Nat.le_add_right ..)

theorem Told.receipts (h : Told node hash start poll finish new)
    : receipts new = poll.receipt?.toList.map (hash, ·) := by
  cases h with
  | failed w h => rfl
  | unsettled w h hstatus => rfl
  | @settled w w' answer h hreceipt =>
    cases answer with
    | error e => rfl
    | ok receipt => cases receipt <;> rfl

theorem Told.receipts_of_unmined (h : Told node hash start poll finish new)
    (hpoll : poll.receipt? = none) : Runbook.receipts new = [] := by
  rw [h.receipts, hpoll]
  rfl

end Poll

def Cancel.raised (cancel : Option Cancel) (now : Nat) : Bool :=
  cancel.any (·.reads now)

/--
How a wait goes on from a time with what still can cancel it: the questions it asks, the newest
first, the time at which it ends and what it comes to.
-/
inductive Waits (node : Node ω) (policy : AwaitPolicy) (hash : Hash) (deadline : Nat)
    : Option Cancel → Nat → List Exchange → Nat → Result Receipt → Prop where
  | cancelled {current : Option Cancel} {now : Nat} (raised : Cancel.raised current now = true)
      : Waits node policy hash deadline current now [] now (.error (waitFault hash .cancelled))
  | timedOut {current : Option Cancel} {now : Nat} (low : Cancel.raised current now = false)
      (late : deadline ≤ now)
      : Waits node policy hash deadline current now [] now (.error (waitFault hash .timedOut))
  | mined {current : Option Cancel} {now finish : Nat} {asked : List Exchange} {r : Receipt}
      (low : Cancel.raised current now = false) (early : now < deadline)
      (told : (Poll.mined r).Told node hash now finish asked)
      : Waits node policy hash deadline current now asked finish
          (if r.success then .ok r else .error (waitFault hash .reverted))
  | poll {current current' : Option Cancel} {now polled time burst burst' finish : Nat}
      {poll : Poll} {new asked : List Exchange} {result : Result Receipt}
      (low : Cancel.raised current now = false) (early : now < deadline)
      (told : poll.Told node hash now polled new) (unmined : poll.receipt? = none)
      (next : nextPoll now polled (pauseEnd polled (poll.interval policy).nanos deadline) current
        burst = (time, current', burst'))
      (rest : Waits node policy hash deadline current' time asked finish result)
      : Waits node policy hash deadline current now (asked ++ new) finish result

theorem awaitFrom_waits (node : Node ω) (policy : AwaitPolicy) (hash : Hash) (deadline : Nat)
    (current : Option Cancel) (burst : Nat) (t : Trace ω)
    : ∃ asked,
        (awaitFrom node policy hash deadline current burst t).2.exchanges = asked ++ t.exchanges ∧
        Waits node policy hash deadline current t.clock asked
          (awaitFrom node policy hash deadline current burst t).2.clock
          (awaitFrom node policy hash deadline current burst t).1 := by
  fun_induction awaitFrom node policy hash deadline current burst t with
  | case1 current burst t hraised => exact ⟨[], rfl, .cancelled hraised⟩
  | case2 current burst t hlow hover =>
    exact ⟨[], rfl, .timedOut (Bool.eq_false_iff.mpr hlow) hover⟩
  | case3 current burst t hlow hopen polled _ _ _ _ r hpoll hsuccess =>
    obtain ⟨asked, hasked, htold⟩ := Poll.once_told node hash t
    rw [show (Poll.once node hash t).1 = .mined r from hpoll] at htold
    have hwaits : Waits node policy hash deadline current t.clock asked polled.2.clock _ :=
      .mined (Bool.eq_false_iff.mpr hlow) (Nat.lt_of_not_le hopen) htold
    rw [if_pos hsuccess] at hwaits
    exact ⟨asked, hasked, hwaits⟩
  | case4 current burst t hlow hopen polled _ _ _ _ r hpoll hfailure =>
    obtain ⟨asked, hasked, htold⟩ := Poll.once_told node hash t
    rw [show (Poll.once node hash t).1 = .mined r from hpoll] at htold
    have hwaits : Waits node policy hash deadline current t.clock asked polled.2.clock _ :=
      .mined (Bool.eq_false_iff.mpr hlow) (Nat.lt_of_not_le hopen) htold
    rw [if_neg hfailure] at hwaits
    exact ⟨asked, hasked, hwaits⟩
  | case5 current burst t hlow hopen polled _ _ _ _ hnot limit next ih =>
    obtain ⟨asked, hasked, htold⟩ := Poll.once_told node hash t
    obtain ⟨asked', hasked', hrest⟩ := ih
    refine ⟨asked' ++ asked, ?_, .poll (Bool.eq_false_iff.mpr hlow) (Nat.lt_of_not_le hopen) htold
      (Poll.receipt?_eq_none hnot) rfl hrest⟩
    rw [List.append_assoc, ← hasked]
    exact hasked'

theorem Waits.receipts {node : Node ω} {policy : AwaitPolicy} {hash : Hash}
    {deadline now finish : Nat} {current : Option Cancel} {asked : List Exchange}
    {result : Result Receipt}
    (h : Waits node policy hash deadline current now asked finish result)
    : (receipts asked = [] ∧ ∃ e, result = .error e) ∨
        ∃ r, receipts asked = [(hash, r)] ∧
          result = if r.success then .ok r else .error (waitFault hash .reverted) := by
  induction h with
  | cancelled => exact .inl ⟨rfl, _, rfl⟩
  | timedOut => exact .inl ⟨rfl, _, rfl⟩
  | mined _ _ htold => exact .inr ⟨_, htold.receipts, rfl⟩
  | poll _ _ htold hunmined _ _ ih =>
    -- A poll that does not end the waiting has seen no receipt.
    rw [receipts_append, htold.receipts_of_unmined hunmined, List.append_nil]
    exact ih

theorem awaitFrom_of_settled {node : Node ω} {hash : Hash} {deadline burst : Nat} {t : Trace ω}
    {r : Receipt} (policy : AwaitPolicy) (hearly : t.clock < deadline)
    (hstatus : ∀ w, (node.ask (.status hash) w).1 = .ok (some .settled))
    (hreceipt : ∀ w, (node.ask (.receipt hash) w).1 = .ok (some r))
    : ∃ t',
        awaitFrom node policy hash deadline none burst t
          = (if r.success then .ok r else .error (waitFault hash .reverted), t') ∧
        t'.exchanges
          =
        ⟨t.clock + node.delay (.status hash) t.world, .receipt hash, .ok (some r)⟩
          :: ⟨t.clock, .status hash, .ok (some .settled)⟩ :: t.exchanges := by
  have honce := Poll.once_of_settled (hstatus t.world) (hreceipt _)
  have hexchanges := Trace.exchanges_asked (hreceipt (t.asked node (.status hash)).world)
  rw [Trace.exchanges_asked (hstatus t.world)] at hexchanges
  rw [awaitFrom]
  simp only [Option.any_none, Bool.false_eq_true, if_false, Nat.not_le.mpr hearly, dite_false,
    honce, Poll.ofReceipt]
  split
  . exact ⟨_, rfl, hexchanges⟩
  . exact ⟨_, rfl, hexchanges⟩

namespace Session

variable {host : Host ω}

def Waiting (hash : Hash) (_ : Session ω) : Event → Prop
  | .ask (.status h) | .ask (.receipt h) => h = hash
  | .log _ _ | .wait _ => True
  | _ => False

theorem runs_once (host : Host ω) (hash : Hash) (σ : Session ω) (t : Trace ω)
    : Runs host (Waiting hash) { σ with trace := t }
        { σ with trace := (Poll.once host.node hash t).2 } := by
  cases hstatus : (host.node.ask (.status hash) t.world).1 with
  | error e =>
    rw [Poll.once_of_error hstatus]
    exact .single (.ask (.status hash)) rfl
  | ok status =>
    by_cases hsettled : status = some .settled
    . subst hsettled
      rw [Poll.once_of_settled hstatus rfl]
      exact .cons (.ask (.status hash)) rfl (.single (.ask (.receipt hash)) rfl)
    . rw [Poll.once_of_unsettled hstatus hsettled]
      exact .single (.ask (.status hash)) rfl

theorem runs_awaitFrom (policy : AwaitPolicy) (hash : Hash) (deadline : Nat)
    (cancel : Option Cancel) (burst : Nat) (σ : Session ω) (t : Trace ω)
    : Runs host (Waiting hash) { σ with trace := t }
        { σ with trace := (awaitFrom host.node policy hash deadline cancel burst t).2 } := by
  fun_induction awaitFrom host.node policy hash deadline cancel burst t with
  | case1 => exact .single (.log _ _) trivial
  | case2 => exact .single (.log _ _) trivial
  | case3 cancel burst t _ _ _ level line _ _ r _ _ =>
    exact (runs_once host hash σ t).trans (.single (.log level line) trivial)
  | case4 cancel burst t _ _ _ level line _ _ r _ _ =>
    exact (runs_once host hash σ t).trans (.single (.log level line) trivial)
  | case5 cancel burst t _ _ _ level line _ _ _ _ next ih =>
    apply (runs_once host hash σ t).trans
    apply Runs.cons (.log level line) trivial
    exact .cons (.wait next.1) trivial ih

theorem follows_await (hash : Hash)
    : Follows host (Waiting hash)
        (onTrace (await host.node host.policy host.cancel hash).run) :=
  fun σ => runs_awaitFrom _ _ _ _ _ σ σ.trace

theorem await_of_settled {hash : Hash} {r : Receipt} (hcancel : host.cancel = none)
    (htimeout : 0 < host.policy.timeout.nanos)
    (hstatus : ∀ w, (host.node.ask (.status hash) w).1 = .ok (some .settled))
    (hreceipt : ∀ w, (host.node.ask (.receipt hash) w).1 = .ok (some r)) (σ : Session ω)
    : ∃ σ', onTrace (await host.node host.policy host.cancel hash).run σ
        = (if r.success then .ok r else .error (waitFault hash .reverted), σ') := by
  have hearly : σ.trace.clock < σ.trace.clock + host.policy.timeout.nanos :=
    Nat.lt_add_of_pos_right htimeout
  obtain ⟨t, hawait, _⟩ :=
    @awaitFrom_of_settled _ _ _ _ maxBurst _ _ host.policy hearly hstatus hreceipt
  refine ⟨{ σ with trace := t }, ?_⟩
  rw [hcancel]
  show (let result := awaitFrom _ _ _ _ _ _ σ.trace
    (result.1, { σ with trace := result.2 })) = _
  rw [hawait]

theorem await_spec (host : Host ω) (hash : Hash) (σ : Session ω)
    : ∃ result σ' new,
        onTrace (await host.node host.policy host.cancel hash).run σ = (result, σ') ∧
        Runs host (Waiting hash) σ σ' ∧
        σ'.trace.exchanges = new ++ σ.trace.exchanges ∧
        ((receipts new = [] ∧ ∃ e, result = .error e) ∨
          ∃ r, receipts new = [(hash, r)] ∧
            result = if r.success then .ok r else .error (waitFault hash .reverted)) := by
  obtain ⟨new, hnew, hwaits⟩ := awaitFrom_waits host.node host.policy hash
    (σ.trace.clock + host.policy.timeout.nanos) host.cancel maxBurst σ.trace
  exact ⟨_, _, new, rfl, follows_await hash σ, hnew, hwaits.receipts⟩

end Session

end Runbook
