import Runbook.Proofs.Pattern.Enclosed
import Runbook.Proofs.Pattern.Match
import Runbook.Wallet.Selector

/-!
This module contains the proof that a selector which is a regular expression by itself accepts the
names that it matches from end to end, and no others.
-/

namespace Runbook

namespace Look

variable {text : Array Char} {isWord : CharSet} {i : Nat}

theorem holds_start_iff (hi : i ≤ text.size) : holds isWord text i .start = true ↔ i = 0 := by
  unfold holds
  by_cases hzero : i = 0
  . simp [hzero]
  . have hbefore : text[i - 1]?.isNone = false := by
      rw [Array.getElem?_eq_getElem (by omega)]
      rfl
    simp [hzero, hbefore]

theorem holds_finish_iff (hi : i ≤ text.size)
    : holds isWord text i .finish = true ↔ i = text.size := by
  show text[i]?.isNone = true ↔ i = text.size
  rw [Option.isNone_iff_eq_none, Array.getElem?_eq_none_iff]
  omega

end Look

namespace Pattern

def whole (p : Pattern) : Pattern :=
  seq (look .start .word) (seq p (seq (look .finish .word) empty))

theorem groups?_opening (fuel : Nat) (cs : List Char)
    : groups? [] (fuel + 2) (.ofMode {}) [] ('^' :: '(' :: '?' :: ':' :: cs)
        =
      groups? [] fuel (.ofMode {}) [(Group.ofMode {}).add (look .start .word)] cs :=
  rfl

theorem parse?_enclosed {text : String} {p q : Pattern} (hq : parse? text = some q)
    (hp : parse? ("^(?:" ++ text ++ ")$") = some p) : p = q.whole := by
  obtain ⟨hq, -⟩ := Option.filter_eq_some_iff.mp hq
  obtain ⟨hp, -⟩ := Option.filter_eq_some_iff.mp hp
  have hchars : ("^(?:" ++ text ++ ")$").toList
      = '^' :: '(' :: '?' :: ':' :: (text.toList ++ closing) := by
    simp [String.toList_append, closing]
  have hlength : ('^' :: '(' :: '?' :: ':' :: (text.toList ++ closing)).length + 1
      = text.toList.length + 1 + 4 + 2 := by
    simp [closing]
  rw [hchars, hlength, groups?_opening] at hp
  exact groups?_closing rfl hq hp

theorem occursIn_whole_iff {p : Pattern} {s : String}
    : p.whole.occursIn s = true ↔ p.Matches s.toList.toArray 0 s.toList.length := by
  rw [occursIn_iff, ← List.size_toArray]
  generalize s.toList.toArray = text
  constructor
  . rintro ⟨i, hi, _, _, ⟨rfl, hstart⟩, j, hmatches, _, ⟨rfl, hfinish⟩, _⟩
    cases (Look.holds_start_iff hi).mp hstart
    rwa [(Look.holds_finish_iff (hmatches.le_size hi)).mp hfinish] at hmatches
  . intro hmatches
    have hstart : Look.start.holds .word text 0 = true :=
      (Look.holds_start_iff (Nat.zero_le _)).mpr rfl
    have hfinish : Look.finish.holds .word text text.size = true :=
      (Look.holds_finish_iff (Nat.le_refl _)).mpr rfl
    exact ⟨0, Nat.zero_le _, _, 0, ⟨rfl, hstart⟩, _, hmatches, _, ⟨rfl, hfinish⟩, rfl⟩

end Pattern

namespace Selector

/--
A selector that is a regular expression by itself accepts exactly the names that this matches from
end to end.
-/
theorem accepts_iff_whole {text name : String} {q : Pattern} {s : Selector} (htext : text ≠ "")
    (hq : Pattern.parse? text = some q) (hs : parse text = .ok s)
    : s.accepts name = true ↔ q.Matches name.toList.toArray 0 name.toList.length := by
  have hp : Pattern.parse? ("^(?:" ++ text ++ ")$") = some s.pattern := by
    unfold parse expression at hs
    rw [if_neg (by simpa using htext)] at hs
    split at hs
    . next p hp =>
      cases hs
      exact hp
    . cases hs
  unfold accepts
  rw [Pattern.parse?_enclosed hq hp]
  exact Pattern.occursIn_whole_iff

theorem accepts_malice
    : ∃ s q,
        Pattern.parse? "alice|bob" = some q ∧
        parse "alice|bob" = .ok s ∧
        (s.accepts "malice" = true ↔
          q.Matches "malice".toList.toArray 0 "malice".toList.length) := by
  have hpattern : (Pattern.parse? "alice|bob").isSome = true := by decide +kernel
  have hparse : (parse "alice|bob").toOption.isSome = true := by decide +kernel
  obtain ⟨q, hq⟩ := Option.isSome_iff_exists.mp hpattern
  cases hs : parse "alice|bob" with
  | error e =>
    rw [hs] at hparse
    cases hparse
  | ok s => exact ⟨s, q, hq, rfl, accepts_iff_whole (by decide) hq hs⟩

-- The parentheses of this one are balanced only together with those around it.
example
    : Pattern.parse? "alice)|(?:bob" = none ∧
      (parse "alice)|(?:bob").toOption.isSome = true := by
  decide +kernel

end Selector

end Runbook
