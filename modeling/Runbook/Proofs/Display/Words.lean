import Runbook.Proofs.Display.Returned

/-!
This module contains what returned data comes to that does not decode: the numbers of its first
words, as decimal texts which are encoded as the data again.
-/

namespace Runbook.Abi

theorem natOfBytes_lt {bs : Bytes} (h : bs.length = 32) : natOfBytes bs < 2 ^ 256 := by
  have hmod : natOfBytes bs = natOfBytes bs % 256 ^ 32 := by
    conv_lhs => rw [← word_natOfBytes h, word, natOfBytes_bytesOfNat]
  omega

section Reading

variable {n bits : Nat}

open Text LiteralReader

theorem digits_repr (n : Nat) : digits n.repr.toList = some (10, n.repr.toList, []) := by
  have hdigit : ∀ c ∈ n.repr.toList, c.isDigit = true := fun c hc => isDigit_of_mem_repr hc
  have hne : n.repr.toList ≠ [] := by
    rw [Nat.toList_repr]
    exact Nat.toDigits_ne_nil
  generalize n.repr.toList = cs at hdigit hne
  -- A mark of a radix is a letter behind the zero.
  have hradix (c : Char) (rest : List Char) (hc : c.isDigit = false) : cs ≠ '0' :: c :: rest := by
    rintro rfl
    rw [hdigit c (by simp)] at hc
    cases hc
  unfold digits
  dsimp only
  split
  all_goals try exact absurd rfl (hradix _ _ (by decide))
  rw [List.takeWhile_eq_self_iff.mpr hdigit, List.dropWhile_eq_nil_iff.mpr hdigit, if_neg]
  rwa [List.isEmpty_iff]

theorem number_repr (h : n < 2 ^ 256) : number 10 n.repr.toList = some n := by
  have hdigits : n.repr.toList.all (digitValue · < 10) = true := by
    rw [List.all_eq_true]
    intro c hc
    have hdigit := isDigit_of_mem_repr hc
    have hle : c.toNat ≤ 57 := by
      simp only [Char.isDigit, Bool.and_eq_true, decide_eq_true_eq] at hdigit
      exact UInt32.le_iff_toNat_le.mp hdigit.2
    rw [decide_eq_true_iff, digitValue, if_pos hdigit]
    omega
  have hvalue : digitsValue 10 n.repr.toList = n := by
    rw [Nat.toList_repr]
    exact digitsValue_toDigits n
  unfold number
  rw [hdigits, hvalue, Bool.true_and, if_pos (decide_eq_true h)]

theorem natural_repr (hbits : n < 2 ^ bits) (h : n < 2 ^ 256)
    : natural bits n.repr.toList = some (n, []) := by
  have hunit : unitPower? (String.ofList []) = some 0 := by decide
  have hdigits := digits_repr n
  have hnumber := number_repr h
  generalize n.repr.toList = cs at hdigits hnumber
  unfold natural
  rw [hdigits]
  simp [skipSpace, hunit, hnumber, hbits]

theorem parse?_toString (h : n < 2 ^ 256)
    : (AbiType.uint 256).parse? (toString n) = some (.uint n) := by
  have hread : (AbiType.uint 256).literalReader none (toString n).toList
      = some (.uint n, []) := by
    show (natural 256 n.repr.toList).map _ = _
    rw [natural_repr h h]
    rfl
  rw [AbiType.parse?, hread]

end Reading

namespace AbiValue

theorem heads_parts_uint (offset : Nat) (ns : List Nat)
    : heads offset (parts (ns.map uint)) = ns.flatMap word := by
  induction ns with
  | nil => rfl
  | cons n ns ih => exact congrArg (word n ++ ·) ih

theorem tails_parts_uint (ns : List Nat) : tails (parts (ns.map uint)) = [] := by
  induction ns with
  | nil => rfl
  | cons n ns ih => exact ih

theorem layout_parts_uint (ns : List Nat) : layout (parts (ns.map uint)) = ns.flatMap word := by
  rw [layout, heads_parts_uint, tails_parts_uint, List.append_nil]

end AbiValue

theorem genericWords_eq (count : Nat) (data : Bytes)
    : genericWords count data
        =
      (List.range (min count (data.length / 32))).map fun i =>
        natOfBytes ((data.drop (32 * i)).take 32) := by
  induction count generalizing data with
  | zero => simp [genericWords]
  | succ count ih =>
    unfold genericWords
    split
    . next hshort =>
      have hnone : data.length / 32 = 0 := Nat.div_eq_of_lt hshort
      simp [hnone]
    . next hlong =>
      have hlength : min (count + 1) (data.length / 32)
          = min count ((data.drop 32).length / 32) + 1 := by
        rw [List.length_drop]
        omega
      rw [ih, hlength, List.range_succ_eq_map, List.map_cons, List.map_map]
      simp only [List.drop_drop, Function.comp_def, Nat.mul_zero, List.drop_zero, Nat.mul_succ,
        Nat.add_comm]

theorem flatMap_word_genericWords (count : Nat) (data : Bytes)
    : (genericWords count data).flatMap word
        = data.take (32 * (genericWords count data).length) := by
  induction count generalizing data with
  | zero => rfl
  | succ count ih =>
    unfold genericWords
    split
    . rfl
    . next hlong =>
      have hword : (data.take 32).length = 32 := by
        rw [List.length_take]
        omega
      rw [List.flatMap_cons, word_natOfBytes hword, ih, List.length_cons, Nat.mul_succ,
        Nat.add_comm, List.take_add]

theorem lt_of_mem_genericWords {count n : Nat} {data : Bytes} (h : n ∈ genericWords count data)
    : n < 2 ^ 256 := by
  induction count generalizing data with
  | zero => cases h
  | succ count ih =>
    unfold genericWords at h
    split at h
    . cases h
    . next hlong =>
      rcases List.mem_cons.mp h with rfl | h
      . apply natOfBytes_lt
        rw [List.length_take]
        omega
      . exact ih h

theorem mapM_parse?_toString {ns : List Nat} (h : ∀ n ∈ ns, n < 2 ^ 256)
    : (ns.map toString).mapM (AbiType.uint 256).parse? = some (ns.map AbiValue.uint) := by
  induction ns with
  | nil => rfl
  | cons n ns ih =>
    rw [List.forall_mem_cons] at h
    rw [List.map_cons, List.mapM_cons, parse?_toString h.1, ih h.2]
    rfl

namespace Function

def IsWide (f : Function) (data : Bytes) : Prop :=
  1 < f.outputs.length ∨ 32 < data.length

variable {f : Function} {data : Bytes}

theorem decodeOutputs_of_isWide (h : f.returned? data = none) (hwide : f.IsWide data)
    (hlong : 32 ≤ data.length)
    : f.decodeOutputs data
        = .ok (.array ((genericWords maxGenericWords data).map fun n => .string (toString n))) := by
  have hne : (genericWords maxGenericWords data).isEmpty = false := by
    rw [maxGenericWords, genericWords, if_neg (by omega)]
    rfl
  unfold returned? at h
  unfold IsWide at hwide
  unfold decodeOutputs
  rw [h]
  simp only [if_pos hwide, hne]
  rfl

theorem exists_error_of_undecoded (h : f.returned? data = none)
    (hnarrow : ¬ f.IsWide data ∨ data.length < 32)
    : ∃ e, f.decodeOutputs data = .error e ∧ e.kind = .codec := by
  have hnone : (if 1 < f.outputs.length ∨ 32 < data.length then genericWords maxGenericWords data
      else []) = [] := by
    split
    . next hwide =>
      rw [maxGenericWords, genericWords, if_pos (hnarrow.resolve_left (not_not_intro hwide))]
    . rfl
  unfold returned? at h
  unfold decodeOutputs
  rw [h]
  dsimp only
  rw [hnone]
  exact ⟨_, rfl, rfl⟩

/--
Data that does not decode is read as words, if it has one and the function has several outputs or
the data is longer than a word. All whole words are read, up to 32 of them, each as the number that
it writes, and the texts of these numbers are encoded as this much of the data. Any other data is an
error.
-/
theorem decodeOutputs_undecoded (h : f.returned? data = none)
    : (f.IsWide data →
        (32 ≤ data.length → ∃ (texts : List String) (values : List AbiValue),
          f.decodeOutputs data = .ok (.array (texts.map .string)) ∧
          texts.length = min 32 (data.length / 32) ∧
          (∀ (i : Nat) (hi : i < texts.length),
            texts[i] = toString (natOfBytes ((data.drop (32 * i)).take 32))) ∧
          texts.mapM (AbiType.uint 256).parse? = some values ∧
          layout (AbiValue.parts values) = data.take (32 * texts.length)) ∧
        ((∃ e, f.decodeOutputs data = .error e ∧ e.kind = .codec) ↔ data.length < 32)) ∧
      (¬ f.IsWide data → ∃ e, f.decodeOutputs data = .error e ∧ e.kind = .codec) := by
  refine ⟨fun hwide => ⟨fun hlong => ?_, ?_⟩,
    fun hnarrow => exists_error_of_undecoded h (.inl hnarrow)⟩
  . have hdecode := decodeOutputs_of_isWide h hwide hlong
    have heq := genericWords_eq maxGenericWords data
    have hencode := flatMap_word_genericWords maxGenericWords data
    have hlt : ∀ n ∈ genericWords maxGenericWords data, n < 2 ^ 256 :=
      fun n hn => lt_of_mem_genericWords hn
    refine ⟨(genericWords maxGenericWords data).map toString, _, ?_, ?_, ?_,
      mapM_parse?_toString hlt, ?_⟩
    . rw [List.map_map]
      exact hdecode
    . rw [List.length_map, heq, List.length_map, List.length_range, maxGenericWords]
    . intro i hi
      simp only [heq, List.getElem_map, List.getElem_range]
    . rw [AbiValue.layout_parts_uint, hencode, List.length_map]
  . constructor
    . rintro ⟨e, he, _⟩
      by_contra hlong
      rw [decodeOutputs_of_isWide h hwide (by omega)] at he
      cases he
    . exact fun hshort => exists_error_of_undecoded h (.inr hshort)

end Function

def reservesFunction : Function where
  name := "reserves"
  inputs := []
  outputs :=
    [{ name := "a", type := "uint", components := [] },
      { name := "b", type := "uint", components := [] }]

def reservesData : Bytes :=
  word 3 ++ List.replicate 7 0xff

theorem returned?_reserves : reservesFunction.returned? reservesData = none := by
  have hresolve : Parameter.resolveAll? reservesFunction.outputs
      = some [.uint 256, .uint 256] := by
    rw [reservesFunction, Parameter.resolveAll?, Parameter.resolve?_of_elementary? (by decide) rfl,
      Parameter.resolveAll?, Parameter.resolve?_of_elementary? (by decide) rfl,
      Parameter.resolveAll?]
    rfl
  rw [Function.returned?, hresolve]
  rfl

theorem decodeOutputs_reserves
    : reservesFunction.returned? reservesData = none ∧ reservesFunction.IsWide reservesData ∧
      reservesFunction.decodeOutputs reservesData = .ok (.array [.string "3"]) := by
  have hwide : reservesFunction.IsWide reservesData := .inl (by decide)
  refine ⟨returned?_reserves, hwide, ?_⟩
  obtain ⟨texts, _, hdecode, hlength, htexts, _⟩ :=
    ((Function.decodeOutputs_undecoded returned?_reserves).1 hwide).1 (by decide)
  obtain ⟨text, rfl⟩ := List.length_eq_one_iff.mp (hlength.trans (by decide))
  have htext : text = "3" := (htexts 0 Nat.zero_lt_one).trans (by decide)
  rw [hdecode, htext]
  rfl

end Runbook.Abi
