import Mathlib.Algebra.Order.Floor.Div
import Mathlib.Data.List.Chain
import Runbook.Proofs.Engine.Waited

/-!
This module contains when the wait for a transaction polls the node, how many polls fit into it, and
when it ends without a receipt.
-/

namespace Runbook

variable {ω : Type} {node : Node ω}

/--
Queries about the transaction take no time.
-/
structure Node.Prompt (node : Node ω) (hash : Hash) : Prop where
  status : ∀ w, node.delay (.status hash) w = 0
  receipt : ∀ w, node.delay (.receipt hash) w = 0

theorem Poll.Told.finish_eq {hash : Hash} {start finish : Nat} {poll : Poll} {new : List Exchange}
    (h : poll.Told node hash start finish new) (hprompt : node.Prompt hash) : finish = start := by
  cases h with
  | failed w h => exact congrArg (start + ·) (hprompt.status w)
  | unsettled w h hstatus => exact congrArg (start + ·) (hprompt.status w)
  | settled w w' h hreceipt =>
    rw [hprompt.status, hprompt.receipt]
    rfl

def Spaced (policy : AwaitPolicy) (p q : Nat × Poll) : Prop :=
  p.2.receipt? = none ∧ q.1 = p.1 + (p.2.interval policy).nanos

/--
What is known of a wait from `start` to `finish` that nobody cancels: the times of its polls, and
that it ends at the deadline if it gets no receipt.
-/
structure Paced (node : Node ω) (policy : AwaitPolicy) (hash : Hash)
    (start deadline finish : Nat) (polls : List (Nat × Poll)) (asked : List Exchange)
    (result : Result Receipt) : Prop where
  polled : Polled node hash polls asked
  first : polls.head?.map Prod.fst = if start < deadline then some start else none
  next : polls.IsChain (Spaced policy)
  early : ∀ p ∈ polls, p.1 < deadline
  /-- No poll is left out before the deadline. -/
  last : ∀ p ∈ polls.getLast?, p.2.receipt? = none →
    deadline ≤ p.1 + (p.2.interval policy).nanos
  timedOut : receipts asked = [] → result = .error (waitFault hash .timedOut) ∧ finish = deadline

namespace Poll

variable {policy : AwaitPolicy}

theorem min_le_interval (policy : AwaitPolicy) (poll : Poll)
    : min policy.interval.nanos policy.errorInterval.nanos ≤ (poll.interval policy).nanos := by
  cases poll with
  | pending => exact Nat.min_le_left ..
  | failed kind => exact Nat.min_le_right ..
  | mined r => exact Nat.min_le_left ..

theorem interval_pos (hinterval : 0 < policy.interval.nanos)
    (herror : 0 < policy.errorInterval.nanos) (poll : Poll)
    : 0 < (poll.interval policy).nanos :=
  Nat.lt_of_lt_of_le (Nat.lt_min.mpr ⟨hinterval, herror⟩) (min_le_interval policy poll)

end Poll

namespace Paced

variable {policy : AwaitPolicy} {hash : Hash} {start deadline finish : Nat}
variable {polls : List (Nat × Poll)} {asked : List Exchange} {result : Result Receipt}

theorem time_of_head? (h : Paced node policy hash start deadline finish polls asked result)
    {p : Nat × Poll} (hp : polls.head? = some p) : p.1 = start := by
  have hfirst := h.first
  rw [hp, Option.map_some] at hfirst
  split at hfirst
  . exact Option.some.inj hfirst
  . cases hfirst

theorem of_over (node : Node ω) (policy : AwaitPolicy) (hash : Hash) (deadline : Nat)
    : Paced node policy hash deadline deadline deadline [] []
        (.error (waitFault hash .timedOut)) where
  polled := .nil
  first := by simp
  next := .nil
  early := by simp
  last := by simp
  timedOut _ := ⟨rfl, rfl⟩

theorem of_mined {r : Receipt} (htold : (Poll.mined r).Told node hash start start asked)
    (hstart : start < deadline) (finish : Nat) (result : Result Receipt)
    : Paced node policy hash start deadline finish [(start, .mined r)] asked result where
  polled := .cons htold .nil
  first := by simp [hstart]
  next := .singleton _
  early := by simpa using hstart
  last p hp hnone := by
    cases hp
    cases hnone
  timedOut hnone := by
    rw [htold.receipts] at hnone
    cases hnone

theorem later {poll : Poll} {new : List Exchange}
    (h : Paced node policy hash (min (start + (poll.interval policy).nanos) deadline) deadline finish
      polls asked result)
    (htold : poll.Told node hash start start new) (hpoll : poll.receipt? = none)
    (hstart : start < deadline)
    : Paced node policy hash start deadline finish ((start, poll) :: polls) (asked ++ new)
        result where
  polled := .cons htold h.polled
  first := by simp [hstart]
  next := by
    rw [List.isChain_cons]
    refine ⟨fun q hq => ⟨hpoll, ?_⟩, h.next⟩
    have htime := h.time_of_head? hq
    have hearly := h.early q (List.mem_of_mem_head? hq)
    dsimp only
    omega
  early := by
    rw [List.forall_mem_cons]
    exact ⟨hstart, h.early⟩
  last := by
    intro p hp hnone
    cases polls with
    | nil =>
      rw [List.getLast?_singleton, Option.mem_some_iff] at hp
      subst hp
      have hfirst := h.first
      split at hfirst
      . cases hfirst
      . next hover =>
        dsimp only
        omega
    | cons q rest =>
      rw [List.getLast?_cons_cons] at hp
      exact h.last p hp hnone
  timedOut hnone := by
    rw [receipts_append, List.append_eq_nil_iff] at hnone
    exact h.timedOut hnone.1

theorem mul_length_lt (h : polls.IsChain (Spaced policy)) (hearly : ∀ p ∈ polls, p.1 < deadline)
    (hfirst : polls.head?.map Prod.fst = some start)
    : min policy.interval.nanos policy.errorInterval.nanos * (polls.length - 1) <
      deadline - start := by
  induction polls generalizing start with
  | nil => cases hfirst
  | cons p rest ih =>
    cases hfirst
    rw [List.forall_mem_cons] at hearly
    cases rest with
    | nil =>
      rw [List.length_singleton, Nat.sub_self, Nat.mul_zero]
      exact Nat.sub_pos_of_lt hearly.1
    | cons q rest =>
      rw [List.isChain_cons_cons] at h
      obtain ⟨⟨_, htime⟩, hrest⟩ := h
      have hlater := ih hrest hearly.2 rfl
      have hspace := p.2.min_le_interval policy
      simp only [List.length_cons, Nat.add_sub_cancel, Nat.mul_succ] at hlater ⊢
      omega

theorem length_le (h : Paced node policy hash start deadline finish polls asked result)
    (hinterval : 0 < policy.interval.nanos) (herror : 0 < policy.errorInterval.nanos)
    : polls.length
        ≤
      (deadline - start) ⌈/⌉ min policy.interval.nanos policy.errorInterval.nanos := by
  have hpos := Nat.lt_min.mpr ⟨hinterval, herror⟩
  cases polls with
  | nil => exact Nat.zero_le _
  | cons p rest =>
    have hlt := mul_length_lt h.next h.early (congrArg some (h.time_of_head? rfl))
    rw [List.length_cons, Nat.add_sub_cancel] at hlt
    rw [List.length_cons, Nat.succ_le_iff, ← Nat.not_le, ceilDiv_le_iff_le_mul hpos, Nat.not_le]
    exact hlt

end Paced

theorem nextPoll_none {begun now limit : Nat} (h : begun < limit) (burst : Nat)
    : nextPoll begun now limit none burst = (limit, none, maxBurst) := by
  unfold nextPoll
  rw [if_pos (.inr h)]
  rfl

theorem pauseEnd_of_lt {now deadline : Nat} (h : now < deadline) (interval : Nat)
    : pauseEnd now interval deadline = min (now + interval) deadline := by
  unfold pauseEnd
  omega

variable {policy : AwaitPolicy}

theorem Waits.paced {hash : Hash} {current : Option Cancel} {deadline now finish : Nat}
    {asked : List Exchange} {result : Result Receipt}
    (h : Waits node policy hash deadline current now asked finish result)
    (hprompt : node.Prompt hash) (hinterval : 0 < policy.interval.nanos)
    (herror : 0 < policy.errorInterval.nanos) (hcurrent : current = none) (hnow : now ≤ deadline)
    : ∃ polls, Paced node policy hash now deadline finish polls asked result := by
  induction h with
  | cancelled hraised =>
    subst hcurrent
    cases hraised
  | timedOut _ hover =>
    obtain rfl := Nat.le_antisymm hnow hover
    exact ⟨[], .of_over node policy hash _⟩
  | mined _ hearly htold =>
    cases htold.finish_eq hprompt
    exact ⟨_, .of_mined htold hearly _ _⟩
  | @poll _ _ _ _ _ _ _ _ poll _ _ _ _ hearly htold hunmined hnext _ ih =>
    subst hcurrent
    cases htold.finish_eq hprompt
    have hpos := poll.interval_pos hinterval herror
    rw [pauseEnd_of_lt hearly, nextPoll_none (by omega)] at hnext
    cases hnext
    obtain ⟨polls, hpaced⟩ := ih rfl (Nat.min_le_right ..)
    exact ⟨_, hpaced.later htold hunmined hearly⟩

namespace Cancel

/--
The flag is raised at `time` and was not before, from `start` on.
-/
structure Rises (cancel : Option Cancel) (start time : Nat) : Prop where
  le : start ≤ time
  low : ∀ now, start ≤ now → now < time → raised cancel now = false
  raised : Cancel.raised cancel time = true

variable {current : Option Cancel} {now time limit : Nat}

theorem reads_of_lt {c : Cancel} {s : Nat × Signal} {rest : List (Nat × Signal)}
    (hsignals : c.signals = s :: rest) (h : now < s.1) : c.reads now = c.flag := by
  unfold reads
  rw [hsignals, reads.go.eq_def]
  exact if_neg (Nat.not_le.mpr h)

theorem wake_le (hlow : raised current now = false) (hraised : raised current time = true)
    (hle : now ≤ time) (limit : Nat) : (Wake.after now limit current).time ≤ time := by
  cases current with
  | none => cases hraised
  | some c =>
    have hlow : c.reads now = false := hlow
    have hraised : c.reads time = true := hraised
    unfold Wake.after
    dsimp only
    split
    . next hsignals =>
      have hflag (t : Nat) : c.reads t = c.flag := reads_of_left (by simp [hsignals]) t
      rw [hflag] at hlow hraised
      rw [hlow] at hraised
      cases hraised
    . next next signal rest hsignals =>
      -- Before its next signal the flag cannot have risen.
      have hnext : next ≤ time := by
        by_contra hlt
        rw [reads_of_lt hsignals (by dsimp only; omega)] at hlow hraised
        rw [hlow] at hraised
        cases hraised
      split
      . dsimp only
        omega
      . cases signal with
        | leave => exact Nat.max_le.mpr ⟨hle, hnext⟩
        | set value => exact Nat.max_le.mpr ⟨hle, hnext⟩

theorem le_of_nextPoll {current' : Option Cancel} {next burst burst' : Nat}
    (hlow : raised current now = false) (hraised : raised current time = true) (hlt : now < time)
    (hnext : nextPoll now now limit current burst = (next, current', burst')) : next ≤ time := by
  have hwake := wake_le hlow hraised (Nat.le_of_lt hlt) limit
  unfold nextPoll at hnext
  dsimp only at hnext
  split at hnext
  . cases hnext
    exact hwake
  . next hsame =>
    split at hnext
    . cases hnext
      omega
    . cases hnext
      exact hwake

end Cancel

/--
What is known of a wait whose flag is raised at `time`: it asks nothing from then on, and the flag
ends it at once if it got no receipt before.
-/
structure Stopped (hash : Hash) (time finish : Nat) (asked : List Exchange)
    (result : Result Receipt) : Prop where
  early : ∀ x ∈ asked, x.time < time
  cancelled : receipts asked = [] → result = .error (waitFault hash .cancelled) ∧ finish = time

namespace Stopped

variable {hash : Hash} {time finish : Nat} {asked : List Exchange} {result : Result Receipt}

theorem of_mined {start : Nat} {r : Receipt}
    (htold : (Poll.mined r).Told node hash start start asked) (hlt : start < time)
    : Stopped hash time finish asked result where
  early x hx := Nat.lt_of_le_of_lt (htold.mem x hx).2.2 hlt
  cancelled hnone := by
    rw [htold.receipts] at hnone
    cases hnone

theorem later {start : Nat} {poll : Poll} {new : List Exchange}
    (h : Stopped hash time finish asked result) (htold : poll.Told node hash start start new)
    (hlt : start < time) : Stopped hash time finish (asked ++ new) result where
  early x hx := by
    cases List.mem_append.mp hx with
    | inl hx => exact h.early x hx
    | inr hx => exact Nat.lt_of_le_of_lt (htold.mem x hx).2.2 hlt
  cancelled hnone := by
    rw [receipts_append, List.append_eq_nil_iff] at hnone
    exact h.cancelled hnone.1

end Stopped

theorem Waits.stopped {hash : Hash} {cancel current : Option Cancel}
    {start time deadline now finish : Nat} {asked : List Exchange} {result : Result Receipt}
    (h : Waits node policy hash deadline current now asked finish result)
    (hprompt : node.Prompt hash)
    (hcloses : ∀ c ∈ cancel, c.Closes) (hrises : Cancel.Rises cancel start time)
    (htime : time < deadline) (htracks : Cancel.Tracks cancel current now) (hstart : start ≤ now)
    (hnow : now ≤ time) : Stopped hash time finish asked result := by
  -- Whoever polls does so before the flag is raised.
  have hbefore {current : Option Cancel} {now : Nat} (htracks : Cancel.Tracks cancel current now)
      (hlow : Cancel.raised current now = false) (hle : now ≤ time) : now < time := by
    refine Nat.lt_of_le_of_ne hle ?_
    rintro rfl
    have := htracks.misses hcloses now (Nat.le_refl _) hlow
    rw [hrises.raised] at this
    cases this
  induction h with
  | @cancelled current now hraised =>
    refine ⟨by simp, fun _ => ⟨rfl, ?_⟩⟩
    apply Nat.le_antisymm hnow
    by_contra hlt
    have := htracks.raised now (Nat.le_refl _) hraised
    rw [hrises.low now hstart (Nat.lt_of_not_le hlt)] at this
    cases this
  | timedOut _ hover => omega
  | mined hlow _ htold =>
    cases htold.finish_eq hprompt
    exact .of_mined htold (hbefore htracks hlow hnow)
  | @poll current _ now _ _ _ _ _ _ _ _ _ hlow _ htold _ hnext _ ih =>
    cases htold.finish_eq hprompt
    have hlt := hbefore htracks hlow hnow
    obtain ⟨hlater, htracks'⟩ := htracks.nextPoll hlow (Nat.le_refl _) hnext
    have hraised : Cancel.raised current time = true := by
      by_contra hdown
      have := htracks.misses hcloses time hnow (Bool.eq_false_iff.mpr hdown)
      rw [hrises.raised] at this
      cases this
    have hle := Cancel.le_of_nextPoll hlow hraised hlt hnext
    exact (ih htracks' (Nat.le_trans hstart hlater) hle).later htold hlt

theorem Waits.receipts_eq_nil {hash : Hash} {current : Option Cancel} {deadline now finish : Nat}
    {asked : List Exchange} {result : Result Receipt}
    (h : Waits node policy hash deadline current now asked finish result)
    (hstatus : ∀ w, (node.ask (.status hash) w).1 ≠ .ok (some .settled))
    : Runbook.receipts asked = [] := by
  induction h with
  | cancelled => rfl
  | timedOut => rfl
  | mined _ _ htold =>
    generalize hpoll : Poll.mined _ = poll at htold
    cases htold with
    | failed => rfl
    | unsettled => rfl
    | settled w w' hsettled => exact absurd (congrArg Prod.fst hsettled) (hstatus w)
  | poll _ _ htold hunmined _ _ ih =>
    rw [receipts_append, ih, htold.receipts_of_unmined hunmined]
    rfl

def unreachable : Node Unit where
  ask _ w := (.error { kind := .network }, w)

theorem receipts_await_unreachable (policy : AwaitPolicy) (cancel : Option Cancel) (hash : Hash)
    : receipts ((await unreachable policy cancel hash).run { world := () }).2.exchanges = [] := by
  obtain ⟨asked, hasked, hwaits⟩ := awaitFrom_waits unreachable policy hash
    (0 + policy.timeout.nanos) cancel maxBurst { world := () }
  rw [List.append_nil] at hasked
  refine Eq.trans (congrArg receipts hasked) (hwaits.receipts_eq_nil ?_)
  intro w h
  cases h

/--
As long as queries take no time, a wait polls at once and then after each interval, up to the
deadline or a receipt. Without a receipt it ends exactly at the deadline, or when its flag is raised
before.
-/
theorem await_paced (node : Node ω) (policy : AwaitPolicy) (hash : Hash) (t : Trace ω)
    (hprompt : node.Prompt hash) (hinterval : 0 < policy.interval.nanos)
    (herror : 0 < policy.errorInterval.nanos)
    : (∃ polls asked,
        ((await node policy none hash).run t).2.exchanges = asked ++ t.exchanges ∧
        Paced node policy hash t.clock (t.clock + policy.timeout.nanos)
          ((await node policy none hash).run t).2.clock polls asked
          ((await node policy none hash).run t).1 ∧
        polls.length
          ≤
        policy.timeout.nanos ⌈/⌉ min policy.interval.nanos policy.errorInterval.nanos) ∧
      ∀ (cancel : Option Cancel) (time : Nat),
        (∀ c ∈ cancel, c.Closes) →
        Cancel.Rises cancel t.clock time →
        time < t.clock + policy.timeout.nanos →
        ∃ asked,
          ((await node policy cancel hash).run t).2.exchanges = asked ++ t.exchanges ∧
          Stopped hash time ((await node policy cancel hash).run t).2.clock asked
            ((await node policy cancel hash).run t).1 := by
  have hwaits (cancel : Option Cancel) :=
    awaitFrom_waits node policy hash (t.clock + policy.timeout.nanos) cancel maxBurst t
  constructor
  . obtain ⟨asked, hasked, hwait⟩ := hwaits none
    obtain ⟨polls, hpaced⟩ := hwait.paced hprompt hinterval herror rfl (Nat.le_add_right ..)
    have hlength := hpaced.length_le hinterval herror
    rw [Nat.add_sub_cancel_left] at hlength
    exact ⟨polls, asked, hasked, hpaced, hlength⟩
  . intro cancel time hcloses hrises htime
    obtain ⟨asked, hasked, hwait⟩ := hwaits cancel
    exact ⟨asked, hasked, hwait.stopped hprompt hcloses hrises htime (.refl cancel t.clock)
      (Nat.le_refl _) hrises.le⟩

theorem await_unreachable
    : let policy : AwaitPolicy := { timeout := .ofSeconds 25 }
      let cancel : Cancel := { signals := [((Duration.ofSeconds 5).nanos, .set true)] }
      let alone := (await unreachable policy none []).run { world := () }
      let cancelled := (await unreachable policy (some cancel) []).run { world := () }
      alone.1 = .error (waitFault [] .timedOut) ∧
        alone.2.clock = (Duration.ofSeconds 25).nanos ∧
        cancelled.1 = .error (waitFault [] .cancelled) ∧
        cancelled.2.clock = (Duration.ofSeconds 5).nanos := by
  intro policy cancel alone cancelled
  obtain ⟨⟨polls, asked, hasked, hpaced, _⟩, hcancel⟩ :=
    await_paced unreachable policy [] { world := () } ⟨fun _ => rfl, fun _ => rfl⟩ (by decide)
      (by decide)
  rw [List.append_nil] at hasked
  have hend := hpaced.timedOut (hasked ▸ receipts_await_unreachable ..)
  have hcloses : ∀ c ∈ some cancel, c.Closes := by simp [cancel, Cancel.Closes]
  have hrises : Cancel.Rises (some cancel) 0 (Duration.ofSeconds 5).nanos :=
    ⟨by decide, fun now _ hlt => Cancel.reads_of_lt rfl hlt, by decide⟩
  obtain ⟨asked', hasked', hstopped⟩ := hcancel (some cancel) _ hcloses hrises (by decide)
  rw [List.append_nil] at hasked'
  have hend' := hstopped.cancelled (hasked' ▸ receipts_await_unreachable ..)
  exact ⟨hend.1, hend.2.trans (Nat.zero_add _), hend'⟩

end Runbook
