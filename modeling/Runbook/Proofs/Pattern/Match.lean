import Mathlib.Data.List.Perm.Subperm
import Runbook.Pattern.Basic

/-!
This module contains what a regular expression matches, and the proof that the places where matches
end are found exactly.
-/

namespace Runbook

namespace Pattern

inductive Repeats (r : Nat → Nat → Prop) : Nat → Nat → Nat → Prop where
  | zero (i : Nat) : Repeats r 0 i i
  | succ {n i j k : Nat} (hstep : r i j) (hrest : Repeats r n j k) : Repeats r (n + 1) i k

namespace Repeats

variable {r : Nat → Nat → Prop} {m n i j k : Nat}

theorem zero_iff : Repeats r 0 i j ↔ i = j := by
  constructor
  . intro h
    cases h
    rfl
  . rintro rfl
    exact .zero i

theorem succ_iff : Repeats r (n + 1) i k ↔ ∃ j, r i j ∧ Repeats r n j k := by
  constructor
  . intro h
    cases h with
    | succ hstep hrest => exact ⟨_, hstep, hrest⟩
  . rintro ⟨j, hstep, hrest⟩
    exact .succ hstep hrest

theorem add_iff : Repeats r (m + n) i k ↔ ∃ j, Repeats r m i j ∧ Repeats r n j k := by
  induction m generalizing i with
  | zero => simp [zero_iff]
  | succ m ih =>
    rw [Nat.succ_add, succ_iff]
    simp only [ih, succ_iff]
    constructor
    . rintro ⟨j, hstep, j', hfront, hback⟩
      exact ⟨j', ⟨j, hstep, hfront⟩, hback⟩
    . rintro ⟨j', ⟨j, hstep, hfront⟩, hback⟩
      exact ⟨j, hstep, j', hfront, hback⟩

theorem mem_of_closed {s : List Nat} (hclosed : ∀ i ∈ s, ∀ j, r i j → j ∈ s) (h : Repeats r n i j)
    (hi : i ∈ s) : j ∈ s := by
  induction h with
  | zero i => exact hi
  | succ hstep _ ih => exact ih (hclosed _ hi _ hstep)

end Repeats

/--
Whether a match of the pattern can stand between the places `i` and `j` of the text. At least
`least` rounds of a repetition are made, also if `most` is less.
-/
def Matches (text : Array Char) : Pattern → Nat → Nat → Prop
  | empty, i, j => j = i
  | char set, i, j => j = i + 1 ∧ ∃ c, text[i]? = some c ∧ set.contains c = true
  | look l isWord, i, j => j = i ∧ l.holds isWord text i = true
  | seq a b, i, k => ∃ j, a.Matches text i j ∧ b.Matches text j k
  | alt a b, i, j => a.Matches text i j ∨ b.Matches text i j
  | times a least most, i, j =>
    ∃ n, least ≤ n ∧ (∀ m ∈ most, n ≤ max least m) ∧ Repeats (a.Matches text) n i j

structure Rising (size : Nat) (places : List Nat) : Prop where
  rising : places.Pairwise (· < ·)
  le_size : ∀ i ∈ places, i ≤ size

/--
`f` takes places to all those that `r` leads to from one of them.
-/
structure Finds (size : Nat) (f : List Nat → List Nat) (r : Nat → Nat → Prop) : Prop where
  rising {places : List Nat} (h : Rising size places) : Rising size (f places)
  mem_iff {places : List Nat} (h : Rising size places) (j : Nat)
    : j ∈ f places ↔ ∃ i ∈ places, r i j

variable {size : Nat} {places ms ns : List Nat} {f g : List Nat → List Nat}
  {r r' : Nat → Nat → Prop}

theorem Rising.nodup (h : Rising size places) : places.Nodup :=
  h.rising.imp Nat.ne_of_lt

theorem Rising.length_le (h : Rising size places) : places.length ≤ size + 1 := by
  have hsub : places ⊆ List.range (size + 1) :=
    fun i hi => List.mem_range.mpr (Nat.lt_succ_of_le (h.le_size i hi))
  have hle := (List.subperm_of_subset h.nodup hsub).length_le
  rwa [List.length_range] at hle

theorem pairwise_mergePlaces (hm : ms.Pairwise (· < ·)) (hn : ns.Pairwise (· < ·))
    : (mergePlaces ms ns).Pairwise (· < ·) := by
  fun_induction mergePlaces ms ns with
  | case1 ns => exact hn
  | case2 ms h => exact hm
  | case3 m ms n ns hlt ih =>
    refine List.pairwise_cons.mpr ⟨fun i hi => ?_, ih hm.of_cons hn⟩
    rcases mem_mergePlaces.mp hi with hi | hi
    . exact List.rel_of_pairwise_cons hm hi
    . rcases List.mem_cons.mp hi with rfl | hi
      . exact hlt
      . exact Nat.lt_trans hlt (List.rel_of_pairwise_cons hn hi)
  | case4 m ms n ns _ hlt ih =>
    refine List.pairwise_cons.mpr ⟨fun i hi => ?_, ih hm hn.of_cons⟩
    rcases mem_mergePlaces.mp hi with hi | hi
    . rcases List.mem_cons.mp hi with rfl | hi
      . exact hlt
      . exact Nat.lt_trans hlt (List.rel_of_pairwise_cons hm hi)
    . exact List.rel_of_pairwise_cons hn hi
  | case5 m ms n ns hge hle ih =>
    have heq : m = n := Nat.le_antisymm (Nat.le_of_not_lt hle) (Nat.le_of_not_lt hge)
    subst heq
    refine List.pairwise_cons.mpr ⟨fun i hi => ?_, ih hm.of_cons hn.of_cons⟩
    rcases mem_mergePlaces.mp hi with hi | hi
    . exact List.rel_of_pairwise_cons hm hi
    . exact List.rel_of_pairwise_cons hn hi

theorem Rising.merge (hm : Rising size ms) (hn : Rising size ns)
    : Rising size (mergePlaces ms ns) where
  rising := pairwise_mergePlaces hm.rising hn.rising
  le_size := by
    intro i hi
    rcases mem_mergePlaces.mp hi with hi | hi
    . exact hm.le_size i hi
    . exact hn.le_size i hi

theorem Finds.congr (h : Finds size f r) (hr : ∀ i j, r i j ↔ r' i j) : Finds size f r' := by
  have heq : r = r' := funext fun i => funext fun j => propext (hr i j)
  rwa [← heq]

theorem Finds.comp (hf : Finds size f r) (hg : Finds size g r')
    : Finds size (g ∘ f) fun i k => ∃ j, r i j ∧ r' j k where
  rising h := hg.rising (hf.rising h)
  mem_iff h k := by
    rw [Function.comp_apply, hg.mem_iff (hf.rising h)]
    simp only [hf.mem_iff h]
    constructor
    . rintro ⟨j, ⟨i, hi, hij⟩, hjk⟩
      exact ⟨i, hi, j, hij, hjk⟩
    . rintro ⟨i, hi, j, hij, hjk⟩
      exact ⟨j, ⟨i, hi, hij⟩, hjk⟩

theorem Finds.merge (hf : Finds size f r) (hg : Finds size g r')
    : Finds size (fun places => mergePlaces (f places) (g places)) fun i j => r i j ∨ r' i j where
  rising h := (hf.rising h).merge (hg.rising h)
  mem_iff h j := by
    rw [mem_mergePlaces, hf.mem_iff h, hg.mem_iff h]
    simp only [and_or_left, exists_or]

theorem Finds.iterate (hf : Finds size f r) (n : Nat)
    : Finds size (Pattern.iterate f n) (Repeats r n) := by
  induction n with
  | zero => exact ⟨id, fun _ j => by simp [Pattern.iterate, Repeats.zero_iff]⟩
  | succ n ih =>
    have hcomp : Finds size (Pattern.iterate f n ∘ f) (Repeats r (n + 1)) :=
      (hf.comp ih).congr fun i j => Repeats.succ_iff.symm
    constructor
    . intro places h
      unfold Pattern.iterate
      split
      . exact ⟨.nil, by simp⟩
      . exact hcomp.rising h
    . intro places h j
      unfold Pattern.iterate
      split
      . next hempty => simp [List.isEmpty_iff.mp hempty]
      . exact hcomp.mem_iff h j

section Reach

variable (hf : Finds size f r)

include hf

theorem Finds.closed_of_length (h : Rising size places)
    (hlength : (mergePlaces places (f places)).length = places.length)
    : ∀ i ∈ places, ∀ j, r i j → j ∈ places := by
  intro i hi j hij
  have hsub : places ⊆ mergePlaces places (f places) :=
    fun k hk => mem_mergePlaces.mpr (.inl hk)
  have hperm := (List.subperm_of_subset h.nodup hsub).perm_of_length_le (Nat.le_of_eq hlength)
  apply hperm.mem_iff.mpr
  exact mem_mergePlaces.mpr (.inr ((hf.mem_iff h j).mpr ⟨i, hi, hij⟩))

theorem Finds.reach (count : Nat)
    : Finds size (Pattern.reach f count) fun i j => ∃ n ≤ count, Repeats r n i j := by
  induction count with
  | zero => exact ⟨id, fun _ j => by simp [Pattern.reach, Repeats.zero_iff]⟩
  | succ count ih =>
    constructor
    . intro places h
      unfold Pattern.reach
      dsimp only
      split
      . exact h
      . exact ih.rising (h.merge (hf.rising h))
    . intro places h j
      unfold Pattern.reach
      dsimp only
      split
      -- The round has brought nothing, so that no further one does.
      . next hlength =>
        constructor
        . intro hj
          exact ⟨j, hj, 0, Nat.zero_le _, .zero j⟩
        . rintro ⟨i, hi, n, _, hrounds⟩
          exact hrounds.mem_of_closed (hf.closed_of_length h hlength) hi
      . rw [ih.mem_iff (h.merge (hf.rising h))]
        simp only [mem_mergePlaces, hf.mem_iff h]
        constructor
        . rintro ⟨k, hk | ⟨i, hi, hik⟩, n, hn, hrounds⟩
          . exact ⟨k, hk, n, by omega, hrounds⟩
          . exact ⟨i, hi, n + 1, by omega, .succ hik hrounds⟩
        . rintro ⟨i, hi, n, hn, hrounds⟩
          cases hrounds with
          | zero => exact ⟨_, .inl hi, 0, by omega, .zero _⟩
          | @succ n _ k _ hstep hrest => exact ⟨k, .inr ⟨i, hi, hstep⟩, n, by omega, hrest⟩

theorem Finds.closed_reach {count : Nat} (h : Rising size places)
    (hcount : size + 1 < count + places.length)
    : ∀ i ∈ Pattern.reach f count places, ∀ j, r i j → j ∈ Pattern.reach f count places := by
  induction count generalizing places with
  | zero =>
    have hle := h.length_le
    omega
  | succ count ih =>
    have hmerge := h.merge (hf.rising h)
    have hsub : places ⊆ mergePlaces places (f places) :=
      fun k hk => mem_mergePlaces.mpr (.inl hk)
    have hle := (List.subperm_of_subset h.nodup hsub).length_le
    unfold Pattern.reach
    dsimp only
    split
    . next hlength => exact hf.closed_of_length h hlength
    . exact ih hmerge (by omega)

theorem Finds.reach_all
    : Finds size (Pattern.reach f (size + 1)) fun i j => ∃ n, Repeats r n i j where
  rising h := (hf.reach _).rising h
  mem_iff h j := by
    constructor
    . intro hj
      obtain ⟨i, hi, n, _, hrounds⟩ := ((hf.reach _).mem_iff h j).mp hj
      exact ⟨i, hi, n, hrounds⟩
    . rintro ⟨i, hi, n, hrounds⟩
      have hpos := List.length_pos_of_mem hi
      have hmem : i ∈ Pattern.reach f (size + 1) _ :=
        ((hf.reach _).mem_iff h i).mpr ⟨i, hi, 0, Nat.zero_le _, .zero i⟩
      exact hrounds.mem_of_closed (hf.closed_reach h (by omega)) hmem

theorem Finds.reach_min (count : Nat)
    : Finds size (Pattern.reach f (min count (size + 1)))
        fun i j => ∃ n ≤ count, Repeats r n i j := by
  by_cases hle : count ≤ size + 1
  . rw [Nat.min_eq_left hle]
    exact hf.reach count
  . rw [Nat.min_eq_right (by omega)]
    refine ⟨fun h => hf.reach_all.rising h, fun h j => ⟨fun hj => ?_, ?_⟩⟩
    . obtain ⟨i, hi, n, hn, hrounds⟩ := ((hf.reach _).mem_iff h j).mp hj
      exact ⟨i, hi, n, by omega, hrounds⟩
    . rintro ⟨i, hi, n, _, hrounds⟩
      exact (hf.reach_all.mem_iff h j).mpr ⟨i, hi, n, hrounds⟩

theorem Finds.times (least : Nat) (most : Option Nat)
    : Finds size
        (fun places =>
          Pattern.reach f
            (match most with
            | some most => min (most - least) (size + 1)
            | none => size + 1)
            (Pattern.iterate f least places))
        fun i j => ∃ n, least ≤ n ∧ (∀ m ∈ most, n ≤ max least m) ∧ Repeats r n i j := by
  cases most with
  | none =>
    refine ((hf.iterate least).comp hf.reach_all).congr fun i k => ⟨?_, ?_⟩
    . rintro ⟨j, hfront, n, hback⟩
      exact ⟨least + n, by omega, by simp, Repeats.add_iff.mpr ⟨j, hfront, hback⟩⟩
    . rintro ⟨n, hn, _, hrounds⟩
      rw [← Nat.add_sub_cancel' hn, Repeats.add_iff] at hrounds
      obtain ⟨j, hfront, hback⟩ := hrounds
      exact ⟨j, hfront, _, hback⟩
  | some most =>
    refine ((hf.iterate least).comp (hf.reach_min (most - least))).congr fun i k => ⟨?_, ?_⟩
    . rintro ⟨j, hfront, n, hn, hback⟩
      refine ⟨least + n, by omega, ?_, Repeats.add_iff.mpr ⟨j, hfront, hback⟩⟩
      intro m hm
      cases hm
      omega
    . rintro ⟨n, hn, hmost, hrounds⟩
      have hmost := hmost most rfl
      rw [← Nat.add_sub_cancel' hn, Repeats.add_iff] at hrounds
      obtain ⟨j, hfront, hback⟩ := hrounds
      exact ⟨j, hfront, n - least, by omega, hback⟩

end Reach

section Ends

variable (text : Array Char)

theorem finds_char (set : CharSet)
    : Finds text.size (ends text (char set)) ((char set).Matches text) where
  rising {places} h := by
    have hfilter := h.rising.filter fun i => text[i]?.any set.contains
    refine ⟨hfilter.map (· + 1) fun _ _ hlt => Nat.succ_lt_succ hlt, ?_⟩
    intro j hj
    obtain ⟨i, hi, rfl⟩ := List.mem_map.mp hj
    obtain ⟨c, hc, _⟩ := (Option.any_eq_true _ _).mp (List.mem_filter.mp hi).2
    exact (Array.getElem?_eq_some_iff.mp hc).1
  mem_iff {places} _ j := by
    unfold ends Matches
    simp only [List.mem_map, List.mem_filter, Option.any_eq_true]
    constructor
    . rintro ⟨i, ⟨hi, hc⟩, rfl⟩
      exact ⟨i, hi, rfl, hc⟩
    . rintro ⟨i, hi, rfl, hc⟩
      exact ⟨i, ⟨hi, hc⟩, rfl⟩

theorem finds_look (l : Look) (isWord : CharSet)
    : Finds text.size (ends text (look l isWord)) ((look l isWord).Matches text) where
  rising {places} h :=
    ⟨h.rising.filter _, fun i hi => h.le_size i (List.mem_of_mem_filter hi)⟩
  mem_iff {places} _ j := by
    unfold ends Matches
    rw [List.mem_filter]
    constructor
    . rintro ⟨hj, hholds⟩
      exact ⟨j, hj, rfl, hholds⟩
    . rintro ⟨i, hi, rfl, hholds⟩
      exact ⟨hi, hholds⟩

theorem finds_ends (p : Pattern) : Finds text.size (ends text p) (p.Matches text) := by
  induction p with
  | empty => exact ⟨id, fun _ j => by simp [ends, Matches]⟩
  | char set => exact finds_char text set
  | look l isWord => exact finds_look text l isWord
  | seq a b iha ihb => exact iha.comp ihb
  | alt a b iha ihb => exact iha.merge ihb
  | times a least most ih => exact ih.times least most

variable {text} {p : Pattern} {i j : Nat}

theorem Matches.le_size (h : p.Matches text i j) (hi : i ≤ text.size) : j ≤ text.size := by
  have hplace : Rising text.size [i] := ⟨List.pairwise_singleton _ i, by simpa using hi⟩
  have hfinds := finds_ends text p
  exact (hfinds.rising hplace).le_size j ((hfinds.mem_iff hplace j).mpr ⟨i, by simp, h⟩)

theorem occursIn_iff {s : String}
    : p.occursIn s = true ↔ ∃ i ≤ s.toList.toArray.size, ∃ j, p.Matches s.toList.toArray i j := by
  generalize htext : s.toList.toArray = text
  have hplaces : Rising text.size (List.range (text.size + 1)) :=
    ⟨List.pairwise_lt_range, fun i hi => Nat.le_of_lt_succ (List.mem_range.mp hi)⟩
  have hmem (j : Nat) := (finds_ends text p).mem_iff hplaces j
  simp only [List.mem_range, Nat.lt_succ_iff] at hmem
  unfold occursIn
  dsimp only
  rw [htext, Bool.not_eq_true', List.isEmpty_eq_false_iff_exists_mem]
  simp only [hmem]
  constructor
  . rintro ⟨j, i, hi, h⟩
    exact ⟨i, hi, j, h⟩
  . rintro ⟨i, hi, j, h⟩
    exact ⟨j, i, hi, h⟩

end Ends

end Pattern

end Runbook
