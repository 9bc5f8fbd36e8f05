import Runbook.Proofs.Engine.Await

/-!
This module contains how the wait for a transaction ends: which answer decides it, and that the node
is asked nothing once the time is over or the wait is cancelled.
-/

namespace Runbook

namespace Cancel

def Closes (c : Cancel) : Prop :=
  c.signals.Pairwise fun s s' => s.2 = .leave → s'.2 = .leave

variable {c : Cancel} {now t : Nat}

theorem reads_notice (c : Cancel) (h : now ≤ t) : (c.notice now).reads t = c.reads t := by
  have hgo (flag : Bool) (signals : List (Nat × Signal))
      : (notice.go now flag signals).reads t = reads.go t flag signals := by
    induction signals generalizing flag with
    | nil => rfl
    | cons s rest ih =>
      obtain ⟨time, signal⟩ := s
      cases signal with
      | leave => rfl
      | set value =>
        rw [notice.go]
        split
        . next hle =>
          rw [ih, reads.go, if_pos (Nat.le_trans hle h)]
        . rfl
  exact hgo c.flag c.signals

theorem signals_notice_suffix (c : Cancel) (now : Nat) : (c.notice now).signals <:+ c.signals := by
  have hgo (flag : Bool) (signals : List (Nat × Signal))
      : (notice.go now flag signals).signals <:+ signals := by
    induction signals generalizing flag with
    | nil => exact List.suffix_refl _
    | cons s rest ih =>
      obtain ⟨time, signal⟩ := s
      cases signal with
      | leave => exact List.suffix_refl _
      | set value =>
        rw [notice.go]
        split
        . exact (ih value).trans (List.suffix_cons _ _)
        . exact List.suffix_refl _
  exact hgo c.flag c.signals

theorem Closes.notice (h : c.Closes) (now : Nat) : (c.notice now).Closes :=
  h.sublist (signals_notice_suffix c now).sublist

theorem reads_of_left (h : ∀ s ∈ c.signals, s.2 = .leave) (t : Nat) : c.reads t = c.flag := by
  have hgo (signals : List (Nat × Signal)) (h : ∀ s ∈ signals, s.2 = .leave)
      : reads.go t c.flag signals = c.flag := by
    induction signals with
    | nil => rfl
    | cons s rest ih =>
      obtain ⟨time, signal⟩ := s
      rw [List.forall_mem_cons] at h
      obtain ⟨rfl, hrest⟩ := h
      rw [reads.go]
      split
      . exact ih hrest
      . rfl
  exact hgo c.signals h

end Cancel

theorem Wake.after_cancel (now limit : Nat) (cancel : Option Cancel)
    : (after now limit cancel).cancel = cancel ∨
      ∃ c, cancel = some c ∧
        ((after now limit cancel).cancel = some (c.notice (after now limit cancel).time) ∨
          (after now limit cancel).cancel = none ∧
            ∃ time rest, c.signals = (time, .leave) :: rest) := by
  unfold after
  split
  . exact .inl rfl
  . next c =>
    split
    . exact .inl rfl
    . next time signal rest hsignals =>
      split
      . exact .inl rfl
      . refine .inr ⟨c, rfl, ?_⟩
        cases signal with
        | leave => exact .inr ⟨rfl, time, rest, hsignals⟩
        | set value => exact .inl rfl

/--
What a wait that began with `cancel` still listens to from `now` on.
-/
structure Cancel.Tracks (cancel current : Option Cancel) (now : Nat) : Prop where
  raised : ∀ t, now ≤ t → Cancel.raised current t = true → Cancel.raised cancel t = true
  closes : (∀ c ∈ cancel, c.Closes) → ∀ c ∈ current, c.Closes
  misses : (∀ c ∈ cancel, c.Closes) → ∀ t, now ≤ t →
    Cancel.raised current t = false → Cancel.raised cancel t = false

namespace Cancel.Tracks

variable {cancel current : Option Cancel} {begun now next limit : Nat}

theorem refl (cancel : Option Cancel) (now : Nat) : Tracks cancel cancel now :=
  ⟨fun _ _ h => h, fun h => h, fun _ _ _ h => h⟩

theorem mono (h : Tracks cancel current now) (hle : now ≤ next) : Tracks cancel current next :=
  ⟨fun t ht => h.raised t (Nat.le_trans hle ht), h.closes,
    fun hcloses t ht => h.misses hcloses t (Nat.le_trans hle ht)⟩

theorem wake (h : Tracks cancel current begun) (hlow : Cancel.raised current begun = false)
    (hle : begun ≤ now) (hlimit : now ≤ limit)
    (hnext : (Wake.after now limit current).time ≤ next)
    : Tracks cancel (Wake.after now limit current).cancel next := by
  have hnow := Nat.le_trans hle (Wake.le_time now limit current hlimit)
  rcases Wake.after_cancel now limit current with heq | ⟨c, rfl, heq | ⟨heq, time, rest, hleave⟩⟩
  . rw [heq]
    exact h.mono (Nat.le_trans hnow hnext)
  . have hreads {t : Nat} (ht : next ≤ t)
        : Cancel.raised (Wake.after now limit (some c)).cancel t = Cancel.raised (some c) t := by
      rw [heq]
      exact Cancel.reads_notice c (Nat.le_trans hnext ht)
    refine ⟨?_, ?_, ?_⟩
    . intro t ht
      rw [hreads ht]
      exact h.raised t (by omega)
    . intro hcloses c' hc'
      rw [heq, Option.mem_some_iff] at hc'
      subst hc'
      exact (h.closes hcloses c rfl).notice _
    . intro hcloses t ht
      rw [hreads ht]
      exact h.misses hcloses t (by omega)
  . rw [heq]
    refine ⟨?_, ?_, ?_⟩
    . intro t _ hraised
      cases hraised
    . intro _ c' hc'
      cases hc'
    . intro hcloses t ht _
      -- Behind the leaving nothing is set, so that the flag stays as low as it was.
      have hleft : ∀ s ∈ c.signals, s.2 = .leave := by
        have hpairs := h.closes hcloses c rfl
        unfold Cancel.Closes at hpairs
        rw [hleave, List.pairwise_cons] at hpairs
        rw [hleave, List.forall_mem_cons]
        exact ⟨rfl, fun s hs => hpairs.1 s hs rfl⟩
      apply h.misses hcloses t (by omega)
      have hreads : c.reads begun = false := hlow
      show c.reads t = false
      rw [Cancel.reads_of_left hleft] at hreads ⊢
      exact hreads

end Cancel.Tracks

theorem time_le_nextPoll (begun now limit : Nat) (cancel : Option Cancel) (burst : Nat)
    : (Wake.after now limit cancel).time ≤ (nextPoll begun now limit cancel burst).1 := by
  unfold nextPoll
  dsimp only
  split
  . exact Nat.le_refl _
  . split
    . exact Nat.le_succ _
    . exact Nat.le_refl _

theorem cancel_nextPoll (begun now limit : Nat) (cancel : Option Cancel) (burst : Nat)
    : (nextPoll begun now limit cancel burst).2.1 = (Wake.after now limit cancel).cancel := by
  unfold nextPoll
  dsimp only
  split
  . rfl
  . split <;> rfl

theorem Cancel.Tracks.nextPoll {cancel current current' : Option Cancel}
    {begun now interval deadline time burst burst' : Nat} (h : Tracks cancel current begun)
    (hlow : Cancel.raised current begun = false) (hle : begun ≤ now)
    (hnext : Runbook.nextPoll begun now (pauseEnd now interval deadline) current burst
      = (time, current', burst'))
    : now ≤ time ∧ Tracks cancel current' time := by
  have hlimit : now ≤ pauseEnd now interval deadline := Nat.le_max_left ..
  have hwake := time_le_nextPoll begun now (pauseEnd now interval deadline) current burst
  have hcurrent := cancel_nextPoll begun now (pauseEnd now interval deadline) current burst
  rw [hnext] at hwake hcurrent
  refine ⟨Nat.le_trans (Wake.le_time _ _ _ hlimit) hwake, ?_⟩
  obtain rfl : current' = _ := hcurrent
  exact h.wake hlow hle hlimit hwake

variable {ω : Type} {node : Node ω}

/--
The polls of a wait with the times at which they begin, the oldest first, and the questions they ask
the node, the newest first.
-/
inductive Polled (node : Node ω) (hash : Hash) : List (Nat × Poll) → List Exchange → Prop where
  | nil : Polled node hash [] []
  | cons {time finish : Nat} {poll : Poll} {new : List Exchange} {polls : List (Nat × Poll)}
      {later : List Exchange} (told : poll.Told node hash time finish new)
      (rest : Polled node hash polls later)
      : Polled node hash ((time, poll) :: polls) (later ++ new)

theorem Poll.Told.eq_of_mined {hash : Hash} {start finish : Nat} {r : Receipt}
    {new : List Exchange} (h : (Poll.mined r).Told node hash start finish new)
    : ∃ time, new
        = [⟨time, .receipt hash, .ok (some r)⟩, ⟨start, .status hash, .ok (some .settled)⟩] := by
  generalize hpoll : mined r = poll at h
  cases h with
  | failed w h => cases hpoll
  | unsettled w h hstatus => cases hpoll
  | @settled w w' answer h hreceipt =>
    cases answer with
    | error e => cases hpoll
    | ok receipt =>
      cases receipt with
      | none => cases hpoll
      | some r' =>
        cases hpoll
        exact ⟨_, rfl⟩

theorem Poll.Told.time_eq {hash : Hash} {start finish : Nat} {poll : Poll} {new : List Exchange}
    (h : poll.Told node hash start finish new) (hprompt : ∀ w, node.delay (.status hash) w = 0)
    : ∀ x ∈ new, x.time = start := by
  cases h with
  | failed w h => simp
  | unsettled w h hstatus => simp
  | settled w w' h hreceipt => simp [hprompt]

theorem Polled.exists_time_eq {hash : Hash} {polls : List (Nat × Poll)} {asked : List Exchange}
    (h : Polled node hash polls asked) (hprompt : ∀ w, node.delay (.status hash) w = 0)
    : ∀ x ∈ asked, ∃ p ∈ polls, x.time = p.1 := by
  induction h with
  | nil => simp
  | cons told _ ih =>
    intro x hx
    cases List.mem_append.mp hx with
    | inl hx =>
      obtain ⟨p, hp, htime⟩ := ih x hx
      exact ⟨p, List.mem_cons_of_mem _ hp, htime⟩
    | inr hx => exact ⟨_, List.mem_cons_self .., told.time_eq hprompt x hx⟩

/--
The last question was for the receipt and got it, in the poll that found the transaction settled. No
earlier question got one.
-/
def Settles (hash : Hash) (r : Receipt) (asked : List Exchange) : Prop :=
  ∃ time begun earlier,
    asked
      =
    ⟨time, .receipt hash, .ok (some r)⟩ :: ⟨begun, .status hash, .ok (some .settled)⟩ :: earlier ∧
    receipts earlier = []

theorem Settles.receipts {hash : Hash} {r : Receipt} {asked : List Exchange}
    (h : Settles hash r asked) : receipts asked = [(hash, r)] := by
  obtain ⟨time, begun, earlier, rfl, hnone⟩ := h
  show (hash, r) :: Runbook.receipts earlier = _
  rw [hnone]

/--
What is known of a wait from `start` to `finish` that asked the node for `asked`, the newest first,
in `polls`.
-/
structure Waited (node : Node ω) (hash : Hash) (cancel : Option Cancel)
    (deadline start finish : Nat) (polls : List (Nat × Poll)) (asked : List Exchange)
    (result : Result Receipt) : Prop where
  polled : Polled node hash polls asked
  asks : ∀ x ∈ asked, (x.request = .status hash ∨ x.request = .receipt hash) ∧
    start ≤ x.time ∧ x.time ≤ finish
  /-- A poll that has begun is not broken off, and may ask for the receipt when the time is over. -/
  early : ∀ p ∈ polls, p.1 < deadline
  unraised : (∀ c ∈ cancel, c.Closes) → ∀ p ∈ polls, Cancel.raised cancel p.1 = false
  confirmed : ∀ r, result = .ok r → r.success = true ∧ Settles hash r asked
  reverted : result = .error (waitFault hash .reverted) →
    ∃ r, r.success = false ∧ Settles hash r asked
  cancelled : result = .error (waitFault hash .cancelled) → Cancel.raised cancel finish = true
  timedOut : result = .error (waitFault hash .timedOut) → deadline ≤ finish ∧ receipts asked = []
  /-- The first receipt decides. -/
  decided : ∀ h r, (h, r) ∈ receipts asked →
    Settles hash r asked ∧
      result = if r.success then .ok r else .error (waitFault hash .reverted)
  /-- Nothing but a receipt, the flag and the clock ends a wait. -/
  undecided : receipts asked = [] →
    result = .error (waitFault hash .cancelled) ∨ result = .error (waitFault hash .timedOut)
  carries : ∀ e, result = .error e → e.transaction = some hash.text

section Waited

variable {hash : Hash} {cancel : Option Cancel} {deadline start finish : Nat} {r : Receipt}

theorem waited_of_unpolled {failure : WaitFailure} (hreverted : failure ≠ .reverted)
    (hcancelled : failure = .cancelled → Cancel.raised cancel finish = true)
    (htimedOut : failure = .timedOut → deadline ≤ finish)
    : Waited node hash cancel deadline start finish [] [] (.error (waitFault hash failure)) where
  polled := .nil
  asks := by simp
  early := by simp
  unraised := by simp
  confirmed _ h := by cases h
  reverted h := by
    cases h
    exact absurd rfl hreverted
  cancelled h := by
    cases h
    exact hcancelled rfl
  timedOut h := by
    cases h
    exact ⟨htimedOut rfl, rfl⟩
  decided _ _ h := by cases h
  undecided _ := by
    cases failure with
    | reverted => exact absurd rfl hreverted
    | timedOut => exact .inr rfl
    | cancelled => exact .inl rfl
  carries e h := by
    cases h
    rfl

theorem waited_of_mined {asked : List Exchange}
    (htold : (Poll.mined r).Told node hash start finish asked) (hstart : start < deadline)
    (hlow : (∀ c ∈ cancel, c.Closes) → Cancel.raised cancel start = false)
    : Waited node hash cancel deadline start finish [(start, .mined r)] asked
        (if r.success then .ok r else .error (waitFault hash .reverted)) := by
  obtain ⟨time, heq⟩ := htold.eq_of_mined
  have hsettles : Settles hash r asked := ⟨time, start, [], heq, rfl⟩
  have hreceipts := hsettles.receipts
  -- The poll of the receipt is the only one, and the last.
  refine
    { polled := .cons htold .nil, asks := htold.mem, early := ?_, unraised := ?_, confirmed := ?_,
      reverted := ?_, cancelled := ?_, timedOut := ?_, decided := ?_, undecided := ?_,
      carries := ?_ }
  . simpa using hstart
  . simpa using hlow
  . intro r' h
    split at h
    . next hsuccess =>
      cases h
      exact ⟨hsuccess, hsettles⟩
    . cases h
  . intro h
    split at h
    . cases h
    . next hsuccess => exact ⟨r, by simpa using hsuccess, hsettles⟩
  . intro h
    split at h <;> cases h
  . intro h
    split at h <;> cases h
  . intro h' r' hmem
    rw [hreceipts] at hmem
    cases List.mem_singleton.mp hmem
    exact ⟨hsettles, rfl⟩
  . intro h
    rw [hreceipts] at h
    cases h
  . intro e h
    split at h
    . cases h
    . cases h
      rfl

theorem Waited.later {polls : List (Nat × Poll)} {asked asked' : List Exchange}
    {result : Result Receipt} {poll : Poll} {polled next : Nat}
    (h : Waited node hash cancel deadline next finish polls asked' result)
    (htold : poll.Told node hash start polled asked) (hpoll : poll.receipt? = none)
    (hnext : polled ≤ next) (hfinish : next ≤ finish) (hstart : start < deadline)
    (hlow : (∀ c ∈ cancel, c.Closes) → Cancel.raised cancel start = false)
    : Waited node hash cancel deadline start finish ((start, poll) :: polls) (asked' ++ asked)
        result := by
  have hnone : receipts asked = [] := htold.receipts_of_unmined hpoll
  have hreceipts : receipts (asked' ++ asked) = receipts asked' := by
    rw [receipts_append, hnone, List.append_nil]
  have hsettles {r : Receipt} (hr : Settles hash r asked') : Settles hash r (asked' ++ asked) := by
    obtain ⟨time, begun, earlier, rfl, hearlier⟩ := hr
    -- The poll has told no receipt, so that each clause is that of the polls behind it.
    refine ⟨time, begun, earlier ++ asked, rfl, ?_⟩
    rw [receipts_append, hearlier, hnone]
    rfl
  refine
    { polled := .cons htold h.polled, asks := ?_, early := ?_, unraised := ?_, confirmed := ?_,
      reverted := ?_, cancelled := h.cancelled, timedOut := ?_, decided := ?_, undecided := ?_,
      carries := h.carries }
  . have hle := htold.le
    intro x hx
    cases List.mem_append.mp hx with
    | inl hx =>
      obtain ⟨hrequest, hafter, hbefore⟩ := h.asks x hx
      exact ⟨hrequest, by omega, hbefore⟩
    | inr hx =>
      obtain ⟨hrequest, hafter, hbefore⟩ := htold.mem x hx
      exact ⟨hrequest, hafter, by omega⟩
  . rw [List.forall_mem_cons]
    exact ⟨hstart, h.early⟩
  . intro hcloses
    rw [List.forall_mem_cons]
    exact ⟨hlow hcloses, h.unraised hcloses⟩
  . intro r hr
    obtain ⟨hsuccess, hlast⟩ := h.confirmed r hr
    exact ⟨hsuccess, hsettles hlast⟩
  . intro hresult
    obtain ⟨r, hsuccess, hlast⟩ := h.reverted hresult
    exact ⟨r, hsuccess, hsettles hlast⟩
  . rw [hreceipts]
    exact h.timedOut
  . intro h' r hmem
    rw [hreceipts] at hmem
    obtain ⟨hlast, hresult⟩ := h.decided h' r hmem
    exact ⟨hsettles hlast, hresult⟩
  . rw [hreceipts]
    exact h.undecided

end Waited

theorem Waits.waited {policy : AwaitPolicy} {hash : Hash} {deadline now finish : Nat}
    {cancel current : Option Cancel} {asked : List Exchange} {result : Result Receipt}
    (h : Waits node policy hash deadline current now asked finish result)
    (htracks : Cancel.Tracks cancel current now)
    : now ≤ finish ∧
        ∃ polls, Waited node hash cancel deadline now finish polls asked result := by
  have hunraised {current : Option Cancel} {now : Nat} (htracks : Cancel.Tracks cancel current now)
      (hlow : Cancel.raised current now = false)
      : (∀ c ∈ cancel, c.Closes) → Cancel.raised cancel now = false :=
    fun hcloses => htracks.misses hcloses now (Nat.le_refl _) hlow
  induction h with
  | cancelled hraised =>
    have hflag := htracks.raised _ (Nat.le_refl _) hraised
    exact ⟨Nat.le_refl _, _, waited_of_unpolled (by simp) (fun _ => hflag) (by simp)⟩
  | timedOut _ hover =>
    exact ⟨Nat.le_refl _, _, waited_of_unpolled (by simp) (by simp) fun _ => hover⟩
  | mined hlow hearly htold =>
    exact ⟨htold.le, _, waited_of_mined htold hearly (hunraised htracks hlow)⟩
  | poll hlow hearly htold hunmined hnext _ ih =>
    obtain ⟨hlater, htracks'⟩ := htracks.nextPoll hlow htold.le hnext
    obtain ⟨hfinish, polls, hwaited⟩ := ih htracks'
    exact ⟨Nat.le_trans htold.le (Nat.le_trans hlater hfinish), _,
      hwaited.later htold hunmined hlater hfinish hearly (hunraised htracks hlow)⟩

theorem awaitFrom_waited (node : Node ω) (policy : AwaitPolicy) (hash : Hash) (deadline : Nat)
    {cancel : Option Cancel} (current : Option Cancel) (burst : Nat) (t : Trace ω)
    (htracks : Cancel.Tracks cancel current t.clock)
    : ∃ polls asked,
        (awaitFrom node policy hash deadline current burst t).2.exchanges = asked ++ t.exchanges ∧
        Waited node hash cancel deadline t.clock
          (awaitFrom node policy hash deadline current burst t).2.clock polls asked
          (awaitFrom node policy hash deadline current burst t).1 := by
  obtain ⟨asked, hasked, hwaits⟩ := awaitFrom_waits node policy hash deadline current burst t
  obtain ⟨_, polls, hwaited⟩ := hwaits.waited htracks
  exact ⟨polls, asked, hasked, hwaited⟩

/--
However the node answers, however long that takes it and whenever the wait is cancelled, a wait ends
with the first receipt, by the flag or at the deadline, and it tells which. It begins no poll when
the time is over or the flag is raised, and asks nothing at all then if the node takes no time to
tell whether the transaction is settled.
-/
theorem await_waited (node : Node ω) (policy : AwaitPolicy) (cancel : Option Cancel) (hash : Hash)
    (t : Trace ω)
    : ∃ polls asked,
        ((await node policy cancel hash).run t).2.exchanges = asked ++ t.exchanges ∧
        Waited node hash cancel (t.clock + policy.timeout.nanos) t.clock
          ((await node policy cancel hash).run t).2.clock polls asked
          ((await node policy cancel hash).run t).1 ∧
        ((∀ w, node.delay (.status hash) w = 0) → ∀ x ∈ asked,
          x.time < t.clock + policy.timeout.nanos ∧
          ((∀ c ∈ cancel, c.Closes) → Cancel.raised cancel x.time = false)) := by
  obtain ⟨polls, asked, hasked, hwaited⟩ :=
    awaitFrom_waited node policy hash (t.clock + policy.timeout.nanos) cancel maxBurst t
      (.refl cancel t.clock)
  refine ⟨polls, asked, hasked, hwaited, ?_⟩
  intro hprompt x hx
  obtain ⟨p, hp, htime⟩ := hwaited.polled.exists_time_eq hprompt x hx
  rw [htime]
  exact ⟨hwaited.early p hp, fun hcloses => hwaited.unraised hcloses p hp⟩

def laggingNode : Node Unit where
  ask
    | .status _, w => (.ok (some Status.settled), w)
    | .receipt _, w => (.ok (some ⟨true, some 1, none⟩), w)
    | _, w => (.error { kind := .network }, w)
  delay
    | .status _, _ => (Duration.ofSeconds 2).nanos
    | _, _ => 0

theorem await_lagging
    : let policy : AwaitPolicy := { timeout := .ofSeconds 1 }
      let ended := (await laggingNode policy none []).run { world := () }
      ended.1 = .ok ⟨true, some 1, none⟩ ∧
        ∃ x ∈ ended.2.exchanges, x.request = .receipt [] ∧ policy.timeout.nanos < x.time := by
  intro policy ended
  obtain ⟨t, hawait, hexchanges⟩ :=
    @awaitFrom_of_settled _ laggingNode [] policy.timeout.nanos maxBurst { world := () }
      ⟨true, some 1, none⟩ policy (by decide) (fun _ => rfl) (fun _ => rfl)
  have hended : ended = (.ok ⟨true, some 1, none⟩, t) := by
    have hdeadline : 0 + policy.timeout.nanos = policy.timeout.nanos := Nat.zero_add _
    show awaitFrom laggingNode policy [] (0 + policy.timeout.nanos) none maxBurst _ = _
    rw [hdeadline, hawait]
    rfl
  rw [hended, hexchanges]
  exact ⟨rfl, _, List.mem_cons_self .., rfl, by decide⟩

end Runbook
