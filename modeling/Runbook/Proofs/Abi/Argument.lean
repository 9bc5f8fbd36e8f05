import Mathlib.Data.List.TakeWhile
import Runbook.Abi.Call
import Runbook.Proofs.Abi.Encoding
import Runbook.Proofs.Outcome
import Runbook.Proofs.Param.Value

/-!
This module contains what a value stands for at an elementary type, and the proof that the values
that are accepted are those whose integers have at most 256 bits.
-/

namespace Runbook.Abi

namespace AbiType

def isAggregate : AbiType → Bool
  | array _ | fixedArray _ _ | tuple _ => true
  | _ => false

end AbiType

namespace TypeExpr

theorem intBits?_bounds {cs : List Char} {bits : Nat} (h : intBits? cs = some bits) :
    8 ≤ bits ∧ bits ≤ 256 := by
  simp only [intBits?, Option.filter_eq_some_iff, Bool.and_eq_true, decide_eq_true_eq,
    beq_iff_eq] at h
  omega

theorem isElementary_of_elementary? {n : String} {t : AbiType} (h : elementary? n = some t) :
    t.IsElementary := by
  unfold elementary? at h
  split at h
  -- What is left are the names with a number in them.
  all_goals try (cases h; trivial)
  split at h
  . obtain ⟨size, hs, rfl⟩ := Option.map_eq_some_iff.mp h
    simp only [Option.filter_eq_some_iff, Bool.and_eq_true, decide_eq_true_eq] at hs
    exact ⟨by omega, by omega⟩
  . obtain ⟨bits, hb, rfl⟩ := Option.map_eq_some_iff.mp h
    exact intBits?_bounds hb
  . obtain ⟨bits, hb, rfl⟩ := Option.map_eq_some_iff.mp h
    exact intBits?_bounds hb
  . cases h

theorem isAggregate_wrap (ts : List AbiType) (e : TypeExpr) :
    (wrap (.tuple ts) e).isAggregate = true := by
  match e with
  | name _ | tuple _ | array _ none | array _ (some _) => rfl

theorem isElementary_of_resolve? {e : TypeExpr} {t : AbiType} (h : e.resolve? = some t)
    (ha : t.isAggregate = false) : t.IsElementary := by
  match e with
  | name n =>
    rw [resolve?] at h
    exact isElementary_of_elementary? h
  | tuple _ | array _ none | array _ (some _) =>
    rw [resolve?] at h
    obtain ⟨_, _, rfl⟩ := Option.map_eq_some_iff.mp h
    cases ha

theorem readMarks_of_eq_nil {cs : List Char} (h : cs = []) (e : TypeExpr) :
    readMarks e cs = some (e, ⟨[], Nat.zero_le _⟩) := by
  subst h
  rw [readMarks]
  all_goals simp

theorem openTuple?_of_isNameChar {cs : List Char} (h : ∀ c ∈ cs, isNameChar c) :
    openTuple? cs = none := by
  unfold openTuple?
  split
  . simp [isNameChar] at h
  . simp [isNameChar] at h
  . rfl

theorem isNameChar_of_isNameStart {c : Char} (h : isNameStart c) : isNameChar c := by
  simp only [isNameStart, isNameChar, Char.isAlphanum, Bool.or_eq_true] at h ⊢
  rcases h with (h | h) | h
  . exact .inl (.inl (.inl h))
  . exact .inl (.inr h)
  . exact .inr h

theorem exists_read_of_isName {cs : List Char} (h : isName (String.ofList cs) = true) :
    ∃ hl, read cs = some (name (String.ofList cs), ⟨[], hl⟩) := by
  unfold isName at h
  rw [String.toList_ofList] at h
  cases cs with
  | nil => cases h
  | cons c cs =>
    simp only [Bool.and_eq_true, List.all_eq_true] at h
    have hopen := openTuple?_of_isNameChar
      (List.forall_mem_cons.mpr ⟨isNameChar_of_isNameStart h.1, h.2⟩)
    have htake : cs.takeWhile isNameChar = cs := List.takeWhile_eq_self_iff.mpr h.2
    have hdrop : cs.dropWhile isNameChar = [] := List.dropWhile_eq_nil_iff.mpr h.2
    refine ⟨by simp, ?_⟩
    rw [read]
    simp [hopen, h.1, htake, readMarks_of_eq_nil hdrop]

theorem parse?_of_isName {s : String} (h : isName s = true) : parse? s = some (name s) := by
  rw [← String.ofList_toList (s := s)] at h
  obtain ⟨hl, hread⟩ := exists_read_of_isName h
  rw [parse?, hread, String.ofList_toList]

end TypeExpr

theorem Parameter.isElementary_of_resolve? {p : Parameter} {t : AbiType} (h : p.resolve? = some t)
    (ha : t.isAggregate = false) : t.IsElementary := by
  obtain ⟨name, type, components⟩ := p
  rw [resolve?] at h
  obtain ⟨e, _, h⟩ := Option.bind_eq_some_iff.mp h
  split at h
  . exact TypeExpr.isElementary_of_resolve? h ha
  . obtain ⟨ts, _, h⟩ := Option.bind_eq_some_iff.mp h
    cases h
    rw [TypeExpr.isAggregate_wrap] at ha
    cases ha

theorem Parameter.resolve?_of_elementary? {name type : String} {t : AbiType}
    (hn : TypeExpr.isName type = true) (h : TypeExpr.elementary? type = some t) :
    resolve? ⟨name, type, []⟩ = some t := by
  rw [resolve?, TypeExpr.parse?_of_isName hn]
  exact h

namespace LiteralReader

variable {close : Option Char} {cs rest : List Char} {a : AbiValue}

theorem lt_of_capped {α : Type} {bits value n : Nat} {x y : α}
    (h : (if value < 2 ^ bits then some (value, x) else none) = some (n, y)) : n < 2 ^ bits := by
  split at h
  . next hlt =>
    cases h
    exact hlt
  . cases h

theorem natural_lt {bits n : Nat} (h : natural bits cs = some (n, rest)) : n < 2 ^ bits := by
  unfold natural at h
  obtain ⟨⟨radix, whole, rest⟩, _, h⟩ := Option.bind_eq_some_iff.mp h
  dsimp only at h
  -- The number is capped in the same way with and without decimal places.
  split at h
  . split at h
    . cases h
    . obtain ⟨⟨places, rest⟩, _, h⟩ := Option.bind_eq_some_iff.mp h
      obtain ⟨power, _, h⟩ := Option.bind_eq_some_iff.mp h
      cases places with
      | none =>
        obtain ⟨value, _, h⟩ := Option.bind_eq_some_iff.mp h
        exact lt_of_capped h
      | some places =>
        obtain ⟨fraction, _, h⟩ := Option.bind_eq_some_iff.mp h
        dsimp only at h
        split at h
        . cases h
        . obtain ⟨whole, _, h⟩ := Option.bind_eq_some_iff.mp h
          exact lt_of_capped h
  . obtain ⟨⟨places, rest⟩, hp, h⟩ := Option.bind_eq_some_iff.mp h
    cases hp
    obtain ⟨power, _, h⟩ := Option.bind_eq_some_iff.mp h
    obtain ⟨value, _, h⟩ := Option.bind_eq_some_iff.mp h
    exact lt_of_capped h

theorem exists_of_uint {bits : Nat} (h : uint bits close cs = some (a, rest)) :
    ∃ n, a = .uint n ∧ n < 2 ^ bits := by
  obtain ⟨⟨n, rest'⟩, hn, heq⟩ := Option.map_eq_some_iff.mp h
  cases heq
  exact ⟨n, rfl, natural_lt hn⟩

theorem exists_of_signed {α : Type} {bits n : Nat} {x y : α} (negative : Bool)
    (h : (if negative then if n ≤ 2 ^ 255 then some (AbiValue.int (-n), x) else none
      else if n < 2 ^ (bits - 1) then some (AbiValue.int n, x) else none) = some (a, y)) :
    ∃ n : Int, a = .int n ∧ -2 ^ 255 ≤ n ∧ n < 2 ^ (bits - 1) := by
  have hpos : (0 : Int) < 2 ^ (bits - 1) := Int.pow_pos (by decide)
  split at h
  . split at h
    . next hle =>
      cases h
      exact ⟨-n, rfl, by omega, by omega⟩
    . cases h
  . split at h
    . next hlt =>
      cases h
      have hlt' : (n : Int) < 2 ^ (bits - 1) := by exact_mod_cast hlt
      exact ⟨n, rfl, by omega, hlt'⟩
    . cases h

/--
Below zero the text of an integer is held to 256 bits only.
-/
theorem exists_of_int {bits : Nat} (h : int bits close cs = some (a, rest)) :
    ∃ n : Int, a = .int n ∧ -2 ^ 255 ≤ n ∧ n < 2 ^ (bits - 1) := by
  obtain ⟨⟨n, rest⟩, _, h⟩ := Option.bind_eq_some_iff.mp h
  exact exists_of_signed _ h

theorem exists_of_string (h : LiteralReader.string close cs = some (a, rest)) :
    ∃ s, a = .string s := by
  unfold LiteralReader.string at h
  split at h
  . cases h
    exact ⟨_, rfl⟩
  . dsimp only at h
    split at h
    . obtain ⟨_, _, heq⟩ := Option.map_eq_some_iff.mp h
      cases heq
      exact ⟨_, rfl⟩
    . split at h
      . cases h
        exact ⟨_, rfl⟩
      . split at h
        . cases h
          exact ⟨_, rfl⟩
        . cases h

theorem exists_of_sized {size : Nat} {f : Bytes → Option AbiValue}
    (h : sized size f close cs = some (a, rest)) : ∃ bs, bs.length = size ∧ f bs = some a := by
  simp only [sized, Option.bind_eq_bind, Option.bind_eq_some_iff] at h
  obtain ⟨⟨bs, rest'⟩, _, h⟩ := h
  split at h
  . next hl =>
    obtain ⟨v, hv, h⟩ := Option.bind_eq_some_iff.mp h
    cases h
    exact ⟨bs, hl, hv⟩
  . cases h

end LiteralReader

namespace AbiType

variable {t : AbiType} {text : String} {a : AbiValue}

theorem exists_of_parse? (h : t.parse? text = some a) :
    ∃ rest, t.literalReader none text.toList = some (a, rest) := by
  unfold parse? at h
  split at h
  . next heq =>
    cases h
    exact ⟨[], heq⟩
  . cases h

theorem exists_of_parse?_uint {bits : Nat} (h : (uint bits).parse? text = some a) :
    ∃ n, a = .uint n ∧ n < 2 ^ bits := by
  obtain ⟨rest, h⟩ := exists_of_parse? h
  rw [literalReader] at h
  exact LiteralReader.exists_of_uint h

theorem exists_of_parse?_int {bits : Nat} (h : (int bits).parse? text = some a) :
    ∃ n : Int, a = .int n ∧ -2 ^ 255 ≤ n ∧ n < 2 ^ (bits - 1) := by
  obtain ⟨rest, h⟩ := exists_of_parse? h
  rw [literalReader] at h
  exact LiteralReader.exists_of_int h

theorem isOf_of_parse? (ht : t.IsElementary) (h : t.parse? text = some a) :
    a.IsOf t ∧ a.FitsBits 256 := by
  obtain ⟨rest, hr⟩ := exists_of_parse? h
  -- Only integers could be too wide, and their readers bound them.
  cases t with
  | bool =>
    simp only [literalReader, LiteralReader.bool] at hr
    split at hr
    . cases hr
      exact ⟨trivial, trivial⟩
    . cases hr
      exact ⟨trivial, trivial⟩
    . cases hr
  | address =>
    rw [literalReader] at hr
    obtain ⟨bs, _, hf⟩ := LiteralReader.exists_of_sized hr
    obtain ⟨address, _, rfl⟩ := Option.map_eq_some_iff.mp hf
    exact ⟨trivial, trivial⟩
  | function =>
    rw [literalReader] at hr
    obtain ⟨bs, hl, hf⟩ := LiteralReader.exists_of_sized hr
    cases hf
    exact ⟨hl, trivial⟩
  | string =>
    rw [literalReader] at hr
    obtain ⟨s, rfl⟩ := LiteralReader.exists_of_string hr
    exact ⟨trivial, trivial⟩
  | bytes =>
    rw [literalReader] at hr
    obtain ⟨⟨bs, _⟩, _, heq⟩ := Option.map_eq_some_iff.mp hr
    cases heq
    exact ⟨trivial, trivial⟩
  | uint bits =>
    obtain ⟨n, rfl, hn⟩ := exists_of_parse?_uint h
    exact ⟨trivial, Nat.lt_of_lt_of_le hn (Nat.pow_le_pow_right (by decide) ht.2)⟩
  | int bits =>
    obtain ⟨n, rfl, hlow, hhigh⟩ := exists_of_parse?_int h
    have hle : (2 : Int) ^ (bits - 1) ≤ 2 ^ 255 := by
      exact_mod_cast Nat.pow_le_pow_right (by decide) (Nat.sub_le_sub_right ht.2 1)
    exact ⟨trivial, hlow, Int.lt_of_lt_of_le hhigh hle⟩
  | fixedBytes size =>
    rw [literalReader] at hr
    obtain ⟨bs, hl, hf⟩ := LiteralReader.exists_of_sized hr
    cases hf
    exact ⟨hl, trivial⟩
  | array _ | fixedArray _ _ | tuple _ => exact ht.elim

end AbiType

def isNative : Value → AbiType → Bool
  | .address _, .address | .bool _, .bool | .string _, .string | .bytes _, .bytes => true
  | .int _ _, .uint _ | .int _ _, .int _ | .byte _, .uint _ => true
  | .byte _, .fixedBytes _ | .bytes _, .fixedBytes _ => true
  | _, _ => false

/--
What a value stands for at an elementary type: itself where the kinds agree, and what its text is
read as where they do not.
-/
inductive StandsFor : Value → AbiType → AbiValue → Prop where
  | address (a : Address) : StandsFor (.address a) .address (.address a)
  | bool (b : Bool) : StandsFor (.bool b) .bool (.bool b)
  | uint (n : Nat) (type : IntType) (bits : Nat) : StandsFor (.int n type) (.uint bits) (.uint n)
  | int (n : Int) (type : IntType) (bits : Nat) : StandsFor (.int n type) (.int bits) (.int n)
  | byte (b : UInt8) (bits : Nat) : StandsFor (.byte b) (.uint bits) (.uint b.toNat)
  | filledByte (b : UInt8) (zeros : Nat)
    : StandsFor (.byte b) (.fixedBytes (1 + zeros)) (.fixedBytes ([b] ++ List.replicate zeros 0))
  | bytes (bs : Bytes) : StandsFor (.bytes bs) .bytes (.bytes bs)
  | filledBytes (bs : Bytes) (zeros : Nat)
    : StandsFor (.bytes bs) (.fixedBytes (bs.length + zeros))
        (.fixedBytes (bs ++ List.replicate zeros 0))
  | string (s : String) : StandsFor (.string s) .string (.string s)
  | text (v : Value) (t : AbiType) (a : AbiValue) (hv : isNative v t = false)
    (h : t.parse? v.text = some a) : StandsFor v t a

namespace AbiValue

variable {t : AbiType} {v : Value} {a : AbiValue}

theorem ofValue_text (h : isNative v t = false) : ofValue t v =
    match t.parse? v.text with
    | some a => pure a
    | none => fail .codec ("cannot convert '" ++ v.text ++ "'") := by
  unfold ofValue
  split <;> first | cases h | rfl

theorem fillBytes_eq_ok {size : Nat} {bs : Bytes}
    : fillBytes size bs = .ok a ↔
      ∃ zeros, bs.length + zeros = size ∧ a = .fixedBytes (bs ++ List.replicate zeros 0) := by
  unfold fillBytes
  split
  . next hlt =>
    constructor
    . intro h
      cases h
    . rintro ⟨zeros, hsize, _⟩
      omega
  . next hle =>
    constructor
    . intro h
      cases h
      exact ⟨size - bs.length, by omega, rfl⟩
    . rintro ⟨zeros, hsize, rfl⟩
      rw [← hsize, Nat.add_sub_cancel_left]
      rfl

theorem standsFor_of_ofValue (h : ofValue t v = .ok a) : StandsFor v t a := by
  -- No pair of a kind and a type is both native and read from its text.
  cases hv : isNative v t with
  | false =>
    rw [ofValue_text hv] at h
    split at h
    . next hp =>
      cases h
      exact .text v t a hv hp
    . cases h
  | true =>
    cases v with
    | address x =>
      cases t with
      | address =>
        cases h
        exact .address x
      | _ => cases hv
    | bool b =>
      cases t with
      | bool =>
        cases h
        exact .bool b
      | _ => cases hv
    | int n type =>
      cases t with
      | uint bits =>
        obtain ⟨m, hm, rfl⟩ := map_eq_ok.mp h
        obtain ⟨rfl, _⟩ := toAmount_eq_ok.mp (Result.eq_ok_of_changeKind hm)
        exact .uint m type bits
      | int bits =>
        obtain ⟨m, hm, rfl⟩ := map_eq_ok.mp h
        obtain ⟨rfl, _⟩ := toSigned_eq_ok.mp (Result.eq_ok_of_changeKind hm)
        exact .int n type bits
      | _ => cases hv
    | byte b =>
      cases t with
      | uint bits =>
        cases h
        exact .byte b bits
      | fixedBytes size =>
        obtain ⟨zeros, rfl, rfl⟩ := fillBytes_eq_ok.mp h
        exact .filledByte b zeros
      | _ => cases hv
    | bytes bs =>
      cases t with
      | bytes =>
        cases h
        exact .bytes bs
      | fixedBytes size =>
        obtain ⟨zeros, rfl, rfl⟩ := fillBytes_eq_ok.mp h
        exact .filledBytes bs zeros
      | _ => cases hv
    | string s =>
      cases t with
      | string =>
        cases h
        exact .string s
      | _ => cases hv

theorem isOf_of_standsFor (ht : t.IsElementary) (h : StandsFor v t a) : a.IsOf t := by
  cases h with
  | filledByte b zeros =>
    show ([b] ++ List.replicate zeros 0).length = 1 + zeros
    rw [List.length_append, List.length_replicate, List.length_singleton]
  | filledBytes bs zeros =>
    show (bs ++ List.replicate zeros 0).length = bs.length + zeros
    rw [List.length_append, List.length_replicate]
  | text _ _ _ _ h => exact (AbiType.isOf_of_parse? ht h).1
  | _ => trivial

theorem fitsBits_of_ofValue (ht : t.IsElementary) (h : ofValue t v = .ok a) : a.FitsBits 256 := by
  cases standsFor_of_ofValue h with
  | uint n type bits =>
    obtain ⟨m, hm, heq⟩ := map_eq_ok.mp h
    cases heq
    exact (toAmount_eq_ok.mp (Result.eq_ok_of_changeKind hm)).2
  | int n type bits =>
    obtain ⟨m, hm, heq⟩ := map_eq_ok.mp h
    cases heq
    exact (toSigned_eq_ok.mp (Result.eq_ok_of_changeKind hm)).2
  | byte b bits =>
    have hb := b.toNat_lt
    show b.toNat < 2 ^ 256
    omega
  | text _ _ _ _ h => exact (AbiType.isOf_of_parse? ht h).2
  | _ => trivial

theorem ofValue_of_standsFor (h : StandsFor v t a) (hf : a.FitsBits 256) :
    ofValue t v = .ok a := by
  cases h with
  | uint n type bits =>
    have hn : toAmount n = .ok n := toAmount_eq_ok.mpr ⟨rfl, hf⟩
    rw [ofValue, hn]
    rfl
  | int n type bits =>
    have hn : toSigned n = .ok n := toSigned_eq_ok.mpr ⟨rfl, hf⟩
    rw [ofValue, hn]
    rfl
  | filledByte b zeros => exact fillBytes_eq_ok.mpr ⟨zeros, rfl, rfl⟩
  | filledBytes bs zeros => exact fillBytes_eq_ok.mpr ⟨zeros, rfl, rfl⟩
  | text _ _ _ hv h => rw [ofValue_text hv, h]; rfl
  | _ => rfl

theorem ofValue_eq_ok (ht : t.IsElementary)
    : ofValue t v = .ok a ↔ StandsFor v t a ∧ a.FitsBits 256 := by
  constructor
  . intro h
    exact ⟨standsFor_of_ofValue h, fitsBits_of_ofValue ht h⟩
  . rintro ⟨h, hf⟩
    exact ofValue_of_standsFor h hf

theorem onlyFails_fillBytes (size : Nat) (bs : Bytes) :
    Result.OnlyFails .codec (fillBytes size bs) := by
  unfold fillBytes
  split
  . exact Result.onlyFails_fail _
  . exact Result.onlyFails_ok _

theorem onlyFails_ofValue (t : AbiType) (v : Value) : Result.OnlyFails .codec (ofValue t v) := by
  unfold ofValue
  split
  . exact Result.onlyFails_ok _
  . exact Result.onlyFails_ok _
  . exact Result.OnlyFails.map _ (Result.onlyFails_changeKind _)
  . exact Result.OnlyFails.map _ (Result.onlyFails_changeKind _)
  . exact Result.onlyFails_ok _
  . exact onlyFails_fillBytes _ _
  . exact Result.onlyFails_ok _
  . exact onlyFails_fillBytes _ _
  . exact Result.onlyFails_ok _
  . split
    . exact Result.onlyFails_ok _
    . exact Result.onlyFails_fail _

end AbiValue

end Runbook.Abi
