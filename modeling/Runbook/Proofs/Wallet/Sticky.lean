import Mathlib.Data.List.Forall2
import Runbook.Wallet.Sticky

/-!
This module contains what calls on a selector of wallets come to, one behind the other: a key keeps
the wallet that its first call with candidates has chosen, whatever is asked for other keys.
-/

namespace Runbook

namespace Sticky

variable {key name name' : String} {candidates candidates' : List String}

theorem mem_of_choice? (h : choice? key candidates = some name) : name ∈ candidates := by
  unfold choice? at h
  exact List.mem_mergeSort.mp (List.mem_of_getElem? h)

theorem choice?_isSome (key : String) (candidates : List String)
    : (choice? key candidates).isSome = true ↔ candidates ≠ [] := by
  unfold choice? place
  rw [isSome_getElem?, List.length_mergeSort, ne_eq, ← List.length_eq_zero_iff]
  refine ⟨fun h => by omega, fun h => Nat.mod_lt _ (Nat.pos_of_ne_zero h)⟩

theorem pairwise_mergeSort (xs : List String)
    : xs.mergeSort.Pairwise fun x y => decide (x ≤ y) = true := by
  apply List.pairwise_mergeSort
  . intro x y z hxy hyz
    exact decide_eq_true (String.le_trans (of_decide_eq_true hxy) (of_decide_eq_true hyz))
  . intro x y
    rw [Bool.or_eq_true, decide_eq_true_eq, decide_eq_true_eq]
    exact String.le_total x y

theorem choice?_perm (key : String) (h : candidates.Perm candidates')
    : choice? key candidates = choice? key candidates' := by
  have heq : candidates.mergeSort = candidates'.mergeSort := by
    apply List.Perm.eq_of_pairwise _ (pairwise_mergeSort _) (pairwise_mergeSort _)
    . exact (List.mergeSort_perm ..).trans (h.trans (List.mergeSort_perm ..).symm)
    . intro x y _ _ hxy hyx
      exact String.le_antisymm (of_decide_eq_true hxy) (of_decide_eq_true hyx)
  unfold choice?
  rw [heq]

theorem mem_of_select {s s' : Sticky} (h : s.select key candidates = .ok (name, s'))
    : name ∈ candidates := by
  unfold select at h
  split at h
  . cases h
  . split at h
    . next hcontains =>
      cases h
      exact List.contains_iff_mem.mp hcontains
    . cases h
  . next hchoice _ =>
    cases h
    exact mem_of_choice? hchoice

structure Call where
  key : String
  candidates : List String

/--
The answer to a call, and the selector to go on with. A choice that fails gives none, so that the
one before the call stays.
-/
def answer (s : Sticky) (c : Call) : Result String × Sticky :=
  match s.select c.key c.candidates with
  | .ok (name, s') => (.ok name, s')
  | .error e => (.error e, s)

/--
A fresh selector behind calls, the newest of which stands first.
-/
def after : List Call → Sticky
  | [] => {}
  | c :: past => ((after past).answer c).2

def reply (past : List Call) (c : Call) : Result String :=
  ((after past).answer c).1

/--
The wallet that the oldest call for the key with candidates chooses.
-/
def owner? (key : String) : List Call → Option String
  | [] => none
  | c :: past => (owner? key past).or (if c.key = key then choice? key c.candidates else none)

variable {past past' : List Call} {c c' : Call}

theorem answer_of_none (s : Sticky) (h : choice? c.key c.candidates = none)
    : ∃ e, s.answer c = (.error e, s) := by
  unfold answer select
  rw [h]
  exact ⟨_, rfl⟩

theorem answer_of_bound {s : Sticky} {chosen bound : String}
    (hchoice : choice? c.key c.candidates = some chosen)
    (hbound : s.bound.find? c.key = some bound)
    : (bound ∈ c.candidates ∧ s.answer c = (.ok bound, s)) ∨
      (bound ∉ c.candidates ∧ ∃ e, s.answer c = (.error e, s)) := by
  unfold answer select
  rw [hchoice, hbound]
  dsimp only
  by_cases hmem : bound ∈ c.candidates
  . rw [if_pos (List.contains_iff_mem.mpr hmem)]
    exact .inl ⟨hmem, rfl⟩
  . rw [if_neg fun h => hmem (List.contains_iff_mem.mp h)]
    exact .inr ⟨hmem, _, rfl⟩

theorem answer_of_unbound {s : Sticky} {chosen : String}
    (hchoice : choice? c.key c.candidates = some chosen) (hbound : s.bound.find? c.key = none)
    : s.answer c = (.ok chosen, ⟨s.bound.set c.key chosen⟩) := by
  unfold answer select
  rw [hchoice, hbound]
  rfl

theorem find?_answer (s : Sticky) (c : Call) (key : String)
    : (s.answer c).2.bound.find? key
        =
      (s.bound.find? key).or (if c.key = key then choice? key c.candidates else none) := by
  cases hchoice : choice? c.key c.candidates with
  | none =>
    obtain ⟨e, hanswer⟩ := answer_of_none s hchoice
    rw [hanswer]
    by_cases hkey : c.key = key
    . rw [if_pos hkey, ← hkey, hchoice, Option.or_none]
    . rw [if_neg hkey, Option.or_none]
  | some chosen =>
    cases hbound : s.bound.find? c.key with
    | none =>
      rw [answer_of_unbound hchoice hbound]
      by_cases hkey : c.key = key
      . rw [if_pos hkey, ← hkey, hchoice, hbound]
        exact Entries.find?_set ..
      . rw [if_neg hkey, Option.or_none]
        exact Entries.find?_set_of_ne _ _ (Ne.symm hkey)
    | some bound =>
      have hsame : (s.answer c).2 = s := by
        rcases answer_of_bound hchoice hbound with ⟨_, hanswer⟩ | ⟨_, e, hanswer⟩
        all_goals rw [hanswer]
      rw [hsame]
      by_cases hkey : c.key = key
      . rw [← hkey, hbound]
        rfl
      . rw [if_neg hkey, Option.or_none]

theorem find?_after (past : List Call) (key : String)
    : (after past).bound.find? key = owner? key past := by
  induction past with
  | nil => rfl
  | cons c past ih => rw [after, find?_answer, ih, owner?]

theorem reply_eq_ok_iff
    : reply past c = .ok name ↔ owner? c.key (c :: past) = some name ∧ name ∈ c.candidates := by
  have howner := find?_after past c.key
  unfold reply
  rw [owner?, if_pos rfl]
  -- Without candidates there is no choice. With some, the key is bound already, or it is bound now.
  cases hchoice : choice? c.key c.candidates with
  | none =>
    have hempty : c.candidates = [] := by
      by_contra hne
      have hsome := (choice?_isSome c.key c.candidates).mpr hne
      rw [hchoice] at hsome
      cases hsome
    obtain ⟨e, hanswer⟩ := answer_of_none (after past) hchoice
    rw [hanswer, hempty]
    exact iff_of_false (by intro h; cases h) fun h => List.not_mem_nil h.2
  | some chosen =>
    cases hbound : owner? c.key past with
    | none =>
      rw [answer_of_unbound hchoice (howner.trans hbound)]
      show Except.ok chosen = Except.ok name ↔ some chosen = some name ∧ name ∈ c.candidates
      rw [Except.ok.injEq, Option.some.injEq]
      refine ⟨fun h => ⟨h, h ▸ mem_of_choice? hchoice⟩, fun h => h.1⟩
    | some bound =>
      rw [Option.some_or, Option.some.injEq]
      rcases answer_of_bound hchoice (howner.trans hbound) with ⟨hmem, h⟩ | ⟨hmem, e, h⟩
      . rw [h]
        refine ⟨fun hname => ?_, fun ⟨hname, _⟩ => congrArg Except.ok hname⟩
        cases hname
        exact ⟨rfl, hmem⟩
      . rw [h]
        refine iff_of_false (by intro h; cases h) ?_
        rintro ⟨rfl, hname⟩
        exact hmem hname

theorem fst_answer (s : Sticky) (c : Call)
    : (s.answer c).1 = (s.select c.key c.candidates).map Prod.fst := by
  unfold answer
  cases s.select c.key c.candidates with
  | error e => rfl
  | ok p => rfl

structure Call.Alike (c c' : Call) : Prop where
  key : c.key = c'.key
  candidates : c.candidates.Perm c'.candidates

theorem reply_congr (h : c.Alike c') (howner : owner? c.key past = owner? c.key past')
    : reply past c = reply past' c' := by
  have hcontains (bound : String) : c'.candidates.contains bound = c.candidates.contains bound :=
    h.candidates.symm.contains_eq
  unfold reply
  rw [fst_answer, fst_answer]
  unfold select
  rw [find?_after, find?_after, ← h.key, ← howner, ← choice?_perm c.key h.candidates]
  cases choice? c.key c.candidates with
  | none => rfl
  | some chosen =>
    cases owner? c.key past with
    | none => rfl
    | some bound =>
      dsimp only
      rw [hcontains]
      split <;> rfl

theorem owner?_filter (key : String) (past : List Call)
    : owner? key (past.filter (·.key = key)) = owner? key past := by
  induction past with
  | nil => rfl
  | cons c past ih =>
    by_cases hkey : c.key = key
    . rw [List.filter_cons_of_pos (by simpa using hkey), owner?, owner?, ih]
    . rw [List.filter_cons_of_neg (by simpa using hkey), owner?, ih, if_neg hkey, Option.or_none]

theorem owner?_alike (key : String) (h : List.Forall₂ Call.Alike past past')
    : owner? key past = owner? key past' := by
  induction h with
  | nil => rfl
  | cons hc _ ih => rw [owner?, owner?, ih, hc.key, choice?_perm key hc.candidates]

/--
An earlier call for the key was answered with the wallet.
-/
def Chose (past : List Call) (key name : String) : Prop :=
  ∃ later c earlier, past = later ++ c :: earlier ∧ c.key = key ∧ reply earlier c = .ok name

theorem owner?_append (later : List Call) (h : owner? key past = some name)
    : owner? key (later ++ past) = some name := by
  induction later with
  | nil => exact h
  | cons c later ih => rw [List.cons_append, owner?, ih, Option.some_or]

theorem chose_iff : Chose past key name ↔ owner? key past = some name := by
  refine ⟨?_, fun h => ?_⟩
  . rintro ⟨later, c, earlier, rfl, rfl, hreply⟩
    exact owner?_append later (reply_eq_ok_iff.mp hreply).1
  . induction past with
    | nil => cases h
    | cons c past ih =>
      cases howner : owner? key past with
      | some name' =>
        rw [owner?, howner, Option.some_or] at h
        obtain ⟨later, d, earlier, hpast, hd⟩ := ih (howner.trans h)
        exact ⟨c :: later, d, earlier, congrArg (c :: ·) hpast, hd⟩
      | none =>
        have hchoice := h
        rw [owner?, howner, Option.none_or] at hchoice
        split at hchoice
        . next hkey =>
          subst hkey
          exact ⟨[], c, past, rfl, rfl, reply_eq_ok_iff.mpr ⟨h, mem_of_choice? hchoice⟩⟩
        . cases hchoice

/--
Calls on a fresh selector, in any order and for any keys. A key that has a wallet keeps it and is
refused where this is no candidate; one that has none gets a candidate if there is any. Calls for
other keys and the order of candidates do not matter, and a call that fails changes nothing.
-/
theorem reply_steady (past : List Call) (c : Call)
    : (∀ name, reply past c = .ok name → name ∈ c.candidates) ∧
      (∀ name, Chose past c.key name →
        ∀ name', reply past c = .ok name' ↔ name' = name ∧ name ∈ c.candidates) ∧
      ((∀ name, ¬ Chose past c.key name) →
        ((∃ name, reply past c = .ok name) ↔ c.candidates ≠ [])) ∧
      reply past c = reply (past.filter (·.key = c.key)) c ∧
      (∀ past' c', List.Forall₂ Call.Alike past past' → c.Alike c' →
        reply past c = reply past' c') ∧
      ∀ e, reply past c = .error e → after (c :: past) = after past := by
  refine ⟨fun name h => (reply_eq_ok_iff.mp h).2, ?_, ?_, ?_, ?_, ?_⟩
  . intro name hchose name'
    rw [reply_eq_ok_iff, owner?, chose_iff.mp hchose, Option.some_or, Option.some.injEq]
    refine ⟨?_, ?_⟩
    . rintro ⟨rfl, hmem⟩
      exact ⟨rfl, hmem⟩
    . rintro ⟨rfl, hmem⟩
      exact ⟨rfl, hmem⟩
  . intro hnone
    have howner : owner? c.key past = none :=
      Option.eq_none_iff_forall_ne_some.mpr fun name h => hnone name (chose_iff.mpr h)
    simp only [reply_eq_ok_iff, owner?, howner, Option.none_or, if_pos]
    rw [← choice?_isSome c.key, Option.isSome_iff_exists]
    exact exists_congr fun name => ⟨fun h => h.1, fun h => ⟨h, mem_of_choice? h⟩⟩
  . exact reply_congr ⟨rfl, .refl _⟩ (owner?_filter c.key past).symm
  . intro past' c' hpast hc
    exact reply_congr hc (owner?_alike c.key hpast)
  . intro e h
    unfold reply answer at h
    rw [after]
    unfold answer
    split at h
    . cases h
    . rfl

end Sticky

end Runbook
