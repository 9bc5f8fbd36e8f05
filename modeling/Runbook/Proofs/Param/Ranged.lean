import Runbook.Proofs.Param.Typed
import Runbook.Proofs.Param.Unresolved

/-!
This module contains the ranges of integer types: that the test by counting binary digits is the one
by the bounds of the type, and which texts are read as integers of a type.
-/

namespace Runbook

theorem bitLength_le_iff {n bits : Nat} : bitLength n ≤ bits ↔ n < 2 ^ bits := by
  unfold bitLength
  split
  . next hzero =>
    subst hzero
    exact iff_of_true (Nat.zero_le _) Nat.one_le_two_pow
  . next hne => exact Nat.log2_lt hne

theorem bitLength_lt_iff {n bits : Nat} (h : bits ≠ 0)
    : bitLength n < bits ↔ n < 2 ^ (bits - 1) := by
  rw [← bitLength_le_iff]
  omega

namespace IntType

/--
Whether `n` lies within the bounds of the type. Those of a signed type are a power of two to either
side of zero, without the upper one.
-/
def InRange (t : IntType) (n : Int) : Prop :=
  match t.signed, t.bits with
  | false, none => 0 ≤ n
  | false, some bits => 0 ≤ n ∧ n < 2 ^ bits
  | true, none => True
  | true, some bits => -2 ^ (bits - 1) ≤ n ∧ n < 2 ^ (bits - 1)

variable {t : IntType} {bits : Nat}

theorem accepts_unsigned (n : Int)
    : accepts ⟨false, some bits⟩ n = true ↔ InRange ⟨false, some bits⟩ n := by
  cases n with
  | ofNat n =>
    have hbound : n < 2 ^ bits ↔ (n : Int) < 2 ^ bits := by norm_cast
    calc accepts ⟨false, some bits⟩ (.ofNat n) = true
      _ ↔ bitLength n ≤ bits := decide_eq_true_iff
      _ ↔ (n : Int) < 2 ^ bits := bitLength_le_iff.trans hbound
      _ ↔ InRange ⟨false, some bits⟩ (.ofNat n) := (and_iff_right (Int.natCast_nonneg n)).symm
  | negSucc n => exact iff_of_false Bool.false_ne_true fun h => by cases h.1

/--
A negative integer has as many binary digits as the one that is as far below minus one as it itself
is above zero: `-2 ^ k` takes no more than `2 ^ k - 1`.
-/
theorem accepts_signed (h : bits ≠ 0) (n : Int)
    : accepts ⟨true, some bits⟩ n = true ↔ InRange ⟨true, some bits⟩ n := by
  have hpos : (0 : Int) < 2 ^ (bits - 1) := Int.pow_pos (by decide)
  cases n with
  | ofNat n =>
    have hbound : n < 2 ^ (bits - 1) ↔ (n : Int) < 2 ^ (bits - 1) := by norm_cast
    have hlower : -2 ^ (bits - 1) ≤ (n : Int) := by omega
    calc accepts ⟨true, some bits⟩ (.ofNat n) = true
      _ ↔ bitLength n < bits := decide_eq_true_iff
      _ ↔ (n : Int) < 2 ^ (bits - 1) := (bitLength_lt_iff h).trans hbound
      _ ↔ InRange ⟨true, some bits⟩ (.ofNat n) := (and_iff_right hlower).symm
  | negSucc n =>
    have hbound : n < 2 ^ (bits - 1) ↔ -2 ^ (bits - 1) ≤ Int.negSucc n := by
      have hcast : n < 2 ^ (bits - 1) ↔ (n : Int) < 2 ^ (bits - 1) := by norm_cast
      omega
    have hupper : Int.negSucc n < 2 ^ (bits - 1) := by omega
    calc accepts ⟨true, some bits⟩ (.negSucc n) = true
      _ ↔ bitLength n < bits := decide_eq_true_iff
      _ ↔ -2 ^ (bits - 1) ≤ Int.negSucc n := (bitLength_lt_iff h).trans hbound
      _ ↔ InRange ⟨true, some bits⟩ (.negSucc n) := (and_iff_left hupper).symm

theorem accepts_iff (h : t.bits ≠ some 0) (n : Int) : t.accepts n = true ↔ t.InRange n := by
  obtain ⟨signed, bits⟩ := t
  cases signed with
  | false =>
    cases bits with
    | none =>
      cases n with
      | ofNat n => exact iff_of_true rfl (Int.natCast_nonneg n)
      | negSucc n => exact iff_of_false Bool.false_ne_true fun h => by cases h
    | some bits => exact accepts_unsigned n
  | true =>
    cases bits with
    | none => exact iff_of_true rfl trivial
    | some bits => exact accepts_signed (fun hzero => h (congrArg some hzero)) n

end IntType

namespace ParamType

variable {name : String} {t : IntType}

theorem bits_ne_zero_of_parseSized {signed : Bool} {width : List Char}
    (h : parseSized name signed width = .ok (.int t)) : t.bits ≠ some 0 := by
  unfold parseSized at h
  split at h
  . next bits hwidth =>
    cases h
    have hpos : ∀ w ∈ widths, w.2 ≠ 0 := by decide
    obtain ⟨front, back, heq, _⟩ := List.lookup_eq_some_iff.mp hwidth
    have hne := hpos (String.ofList width, bits) (by simp [heq])
    intro hzero
    exact hne (Option.some.inj hzero)
  . cases h

theorem bits_ne_zero_of_parse (h : parse name = .ok (.int t)) : t.bits ≠ some 0 := by
  unfold parse at h
  split at h
  case h_9 =>
    split at h
    . exact bits_ne_zero_of_parseSized h
    . exact bits_ne_zero_of_parseSized h
    . cases h
  all_goals cases h <;> nofun

end ParamType

theorem parseParam_int_eq_ok {t : IntType} {raw : String} {v : Value}
    : parseParam (.int t) raw = .ok v ↔
        ∃ n, Calc.evaluate raw [] = .ok (.int n) ∧ t.accepts n = true ∧ v = .int n t := by
  unfold parseParam
  rw [bind_eq_ok]
  simp only [parseInteger_eq_ok, Calc.evaluateInt_eq_ok]
  apply exists_congr
  intro n
  apply and_congr_right
  intro _
  split
  . next haccepts =>
    rw [and_iff_right haccepts]
    exact ⟨fun h => by cases h; rfl, fun h => by cases h; rfl⟩
  . next haccepts => exact iff_of_false (fun h => by cases h) fun h => haccepts h.1

/--
A text is read as an integer of a type just if it evaluates to an integer within the bounds of the
type, and then as this integer; any other text is no value.
-/
theorem parseParam_int_iff {t : IntType} (h : t.bits ≠ some 0) (raw : String)
    : (∀ v, parseParam (.int t) raw = .ok v ↔
        ∃ n, Calc.evaluate raw [] = .ok (.int n) ∧ t.InRange n ∧ v = .int n t) ∧
      Result.OnlyFails .resolution (parseParam (.int t) raw) ∧
      ∀ n, t.accepts n = true ↔ t.InRange n := by
  refine ⟨?_, onlyFails_parseParam (.int t) raw, IntType.accepts_iff h⟩
  intro v
  simp only [parseParam_int_eq_ok, IntType.accepts_iff h]

theorem parseParam_least
    : ParamType.parse "int8" = .ok (.int ⟨true, some 8⟩) ∧
      (⟨true, some 8⟩ : IntType).bits ≠ some 0 ∧
      parseParam (.int ⟨true, some 8⟩) "-128" = .ok (.int (-128) ⟨true, some 8⟩) ∧
      ∀ v, parseParam (.int ⟨true, some 8⟩) "128" ≠ .ok v := by
  have hparse : ParamType.parse "int8" = .ok (.int ⟨true, some 8⟩) := by decide +kernel
  have hbits := ParamType.bits_ne_zero_of_parse hparse
  have heval (n : Int) : Calc.evaluate (toString n) [] = .ok (.int n) :=
    Calc.evaluateInt_eq_ok.mp (Calc.evaluateInt_toString n)
  have htext : toString (-128 : Int) = "-128" := by decide
  have hleast : Calc.evaluate "-128" [] = .ok (.int (-128)) := htext ▸ heval (-128)
  have hbeyond : Calc.evaluate "128" [] = .ok (.int 128) := heval 128
  refine ⟨hparse, hbits, ((parseParam_int_iff hbits _).1 _).mpr ⟨-128, hleast, ⟨?_, ?_⟩, rfl⟩, ?_⟩
  . decide
  . decide
  . intro v hv
    obtain ⟨n, hn, ⟨_, hlt⟩, _⟩ := ((parseParam_int_iff hbits _).1 _).mp hv
    rw [hbeyond] at hn
    cases hn
    revert hlt
    decide

end Runbook
