/-!
This module contains cancellation: signals that come at known times, and how they cut waits short.
-/

namespace Runbook

inductive Signal where
  /-- The flag takes a value. -/
  | set (value : Bool)
  /-- Nobody can cancel any more. -/
  | leave
deriving Repr, DecidableEq

structure Cancel where
  flag : Bool := false
  signals : List (Nat × Signal) := []
deriving Repr, DecidableEq

namespace Cancel

def reads (c : Cancel) (now : Nat) : Bool :=
  go c.flag c.signals
where
  go (flag : Bool) : List (Nat × Signal) → Bool
    | [] => flag
    | (time, signal) :: rest =>
      if time ≤ now then
        match signal with
        | .set value => go value rest
        | .leave => go flag rest
      else flag

def notice (c : Cancel) (now : Nat) : Cancel :=
  go c.flag c.signals
where
  go (flag : Bool) : List (Nat × Signal) → Cancel
    | (time, .set value) :: rest =>
      if time ≤ now then go value rest else { flag, signals := (time, .set value) :: rest }
    | signals => { flag, signals }

def announce (c : Cancel) (time : Nat) (signal : Signal) : Cancel :=
  { c with signals := go c.signals }
where
  go : List (Nat × Signal) → List (Nat × Signal)
    | [] => [(time, signal)]
    | s :: rest => if time < s.1 then (time, signal) :: s :: rest else s :: go rest

theorem length_signals_notice (c : Cancel) (now : Nat) :
    (c.notice now).signals.length ≤ c.signals.length := by
  have (flag : Bool) (signals : List (Nat × Signal)) :
      (notice.go now flag signals).signals.length ≤ signals.length := by
    induction signals generalizing flag with
    | nil => simp [notice.go]
    | cons s rest ih =>
      obtain ⟨time, signal⟩ := s
      cases signal with
      | leave => simp [notice.go]
      | set value =>
        simp only [notice.go]
        split
        . exact Nat.le_succ_of_le (ih value)
        . simp
  exact this c.flag c.signals

def pending : Option Cancel → Nat
  | none => 0
  | some c => c.signals.length + 1

end Cancel

structure Wake where
  time : Nat
  cancel : Option Cancel
  signalled : Bool
deriving Repr, DecidableEq

def Wake.after (now limit : Nat) : Option Cancel → Wake
  | none => { time := limit, cancel := none, signalled := false }
  | some c =>
    match c.signals with
    | [] => { time := limit, cancel := some c, signalled := false }
    | (time, signal) :: _ =>
      if limit < time then { time := limit, cancel := some c, signalled := false }
      else
        -- A signal from before the wait ends it at once.
        let time := max now time
        match signal with
        | .leave => { time, cancel := none, signalled := true }
        | .set _ => { time, cancel := some (c.notice time), signalled := true }

namespace Wake

theorem le_time (now limit : Nat) (c : Option Cancel) (h : now ≤ limit) :
    now ≤ (after now limit c).time := by
  unfold after
  split
  . exact h
  . split
    . exact h
    . split
      . exact h
      . split <;> exact Nat.le_max_left ..

theorem pending_lt (now limit : Nat) (c : Option Cancel) (h : (after now limit c).signalled) :
    Cancel.pending (after now limit c).cancel < Cancel.pending c := by
  unfold after at h ⊢
  split
  . simp at h
  . rename_i c
    split
    . rename_i hs
      simp [hs] at h
    . rename_i time signal rest hs
      simp only [hs] at h
      split
      . rename_i hlt
        simp [hlt] at h
      . cases signal with
        | leave => simp [Cancel.pending]
        | set value =>
          have hle : time ≤ max now time := Nat.le_max_right ..
          have := Cancel.length_signals_notice ⟨value, rest⟩ (max now time)
          simp only [Cancel.pending, Cancel.notice, Cancel.notice.go, hs, hle, if_true] at this ⊢
          simp only [List.length_cons]
          omega

theorem pending_le (now limit : Nat) (c : Option Cancel) :
    Cancel.pending (after now limit c).cancel ≤ Cancel.pending c := by
  by_cases h : (after now limit c).signalled
  . exact Nat.le_of_lt (pending_lt now limit c h)
  . cases c with
    | none => simp [after]
    | some c =>
      match hs : c.signals with
      | [] => simp [after, hs]
      | (time, signal) :: rest =>
        by_cases hlt : limit < time
        . simp [after, hs, hlt]
        . cases signal <;> simp [after, hs, hlt] at h

end Wake

end Runbook
