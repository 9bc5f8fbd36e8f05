import Runbook.Param.Slot
import Runbook.Proofs.Calc.Printed

/-!
This module contains the types of parameter values: which values a text of a type can stand for, and
that the text of such a value stands for the value again.
-/

namespace Runbook

/--
The value is one of the type. An integer carries its type and is in its range.
-/
inductive Value.Fits : ParamType → Value → Prop where
  | string (s : String) : Fits .string (.string s)
  | address (a : Address) : Fits .address (.address a)
  | byte (b : UInt8) : Fits .byte (.byte b)
  | bytes (bs : Bytes) : Fits .bytes (.bytes bs)
  | bool (b : Bool) : Fits .bool (.bool b)
  | int {n : Int} {type : IntType} (h : type.accepts n) : Fits (.int type) (.int n type)

theorem parseInteger_eq_ok {type : ParamType} {raw : String} {n : Int}
    : parseInteger type raw = .ok n ↔ Calc.evaluateInt raw = .ok n := by
  unfold parseInteger
  rw [Result.attach_eq_ok]
  cases Calc.evaluateInt raw with
  | error e => exact iff_of_false (by intro h; cases h) (by intro h; cases h)
  | ok m => exact ⟨fun h => by cases h; rfl, fun h => by cases h; rfl⟩

theorem fits_of_parseParam {type : ParamType} {raw : String} {v : Value}
    (h : parseParam type raw = .ok v) : v.Fits type := by
  unfold parseParam at h
  cases type with
  | string =>
    cases h
    exact .string _
  | address =>
    dsimp only at h
    split at h
    . cases h
      exact .address _
    . cases h
  | byte =>
    obtain ⟨n, _, h⟩ := bind_eq_ok.mp h
    split at h
    . cases h
      exact .byte _
    . cases h
  | bytes =>
    obtain ⟨bs, _, rfl⟩ := map_eq_ok.mp h
    exact .bytes bs
  | bool =>
    obtain ⟨b, _, rfl⟩ := map_eq_ok.mp h
    exact .bool b
  | int type =>
    obtain ⟨n, _, h⟩ := bind_eq_ok.mp h
    split at h
    . next haccepts =>
      cases h
      exact .int haccepts
    . cases h

theorem parseBool_toString (b : Bool) : parseBool (toString b) = .ok b := by
  unfold parseBool
  rw [Calc.evaluateBool_toString]
  rfl

open Text in
theorem parseBytes_hexPrefixed (bs : Bytes) : parseBytes (hexPrefixed bs) = .ok bs := by
  unfold parseBytes
  rw [toList_hexPrefixed]
  have hdigits : unhex? (String.ofList (hexChars bs)) = some bs := unhex?_hex bs
  simp only [hdigits]
  rfl

theorem Value.Fits.parseParam_eq_ok {type : ParamType} {v : Value} (h : v.Fits type)
    : parseParam type v.text = .ok v := by
  cases h with
  | string s => rfl
  | address a =>
    have htrim : Text.trim a.text = a.text := Text.trim_hexPrefixed a.bytes
    unfold parseParam Value.text
    dsimp only
    rw [htrim, Address.parse?_text]
    rfl
  | byte b =>
    have hvalue : parseInteger .byte (toString (b.toNat : Int)) = .ok b.toNat :=
      parseInteger_eq_ok.mpr (Calc.evaluateInt_toString _)
    have hlt := b.toNat_lt
    refine bind_eq_ok.mpr ⟨_, hvalue, ?_⟩
    rw [if_pos (by omega), Int.toNat_natCast, UInt8.ofNat_toNat]
    rfl
  | bytes bs => exact map_eq_ok.mpr ⟨bs, parseBytes_hexPrefixed bs, rfl⟩
  | bool b => exact map_eq_ok.mpr ⟨b, parseBool_toString b, rfl⟩
  | @int n type haccepts =>
    have hvalue : parseInteger (.int type) (toString n) = .ok n :=
      parseInteger_eq_ok.mpr (Calc.evaluateInt_toString n)
    refine bind_eq_ok.mpr ⟨_, hvalue, ?_⟩
    rw [if_pos haccepts]
    rfl

/--
What a text of a type stands for is written as a text that stands for the same.
-/
theorem parseParam_text {type : ParamType} {raw : String} {v : Value}
    (h : parseParam type raw = .ok v) : parseParam type v.text = .ok v :=
  (fits_of_parseParam h).parseParam_eq_ok

theorem parseParam_plain_bytes
    : parseParam .bytes "hi" = .ok (.bytes [0x68, 0x69]) ∧
      parseParam .bytes "0x6869" = .ok (.bytes [0x68, 0x69]) := by
  have h : parseParam .bytes "hi" = .ok (.bytes [0x68, 0x69]) := by decide +kernel
  exact ⟨h, parseParam_text h⟩

end Runbook
