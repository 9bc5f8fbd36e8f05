import Runbook.Proofs.Abi.Argument

/-!
This module contains what goes into a call: which values are accepted, the data that they make, and
what is read back from it.
-/

namespace Runbook.Abi

/--
Whether the integer that a value stands for is within the width of the type. The text of a negative
integer is held to 256 bits, that of any other to the width.
-/
def Fits (v : Value) : AbiType → Prop
  | .uint bits =>
    match v with
    | .int n _ => 0 ≤ n ∧ n < 2 ^ bits
    | _ => True
  | .int bits =>
    match v with
    | .int n _ => -2 ^ (bits - 1) ≤ n ∧ n < 2 ^ (bits - 1)
    | _ => ∀ n, (AbiType.int bits).parse? v.text = some (.int n) → -2 ^ (bits - 1) ≤ n
  | _ => True

theorem fits_text {v : Value} {t : AbiType} {a : AbiValue} (ht : t.IsElementary)
    (hv : isNative v t = false) (h : t.parse? v.text = some a) :
    a.FitsBits t.width ↔ Fits v t := by
  cases t with
  | uint bits =>
    obtain ⟨n, rfl, hn⟩ := AbiType.exists_of_parse?_uint h
    cases v with
    | int => cases hv
    | _ => exact iff_of_true hn trivial
  | int bits =>
    obtain ⟨n, rfl, _, hhigh⟩ := AbiType.exists_of_parse?_int h
    -- The reader caps the number from above by itself.
    have hread : (-2 ^ (bits - 1) ≤ n ∧ n < 2 ^ (bits - 1)) ↔
        ∀ m, (AbiType.int bits).parse? v.text = some (.int m) → -2 ^ (bits - 1) ≤ m := by
      constructor
      . intro hn m hm
        rw [h] at hm
        cases hm
        exact hn.1
      . intro hm
        exact ⟨hm n h, hhigh⟩
    cases v with
    | int => cases hv
    | _ => exact hread
  | _ => exact iff_of_true (AbiType.isOf_of_parse? ht h).2 trivial

theorem fits_iff {v : Value} {t : AbiType} {a : AbiValue} (ht : t.IsElementary)
    (h : StandsFor v t a) : a.FitsBits t.width ↔ Fits v t := by
  cases h with
  | uint n type bits =>
    show n < 2 ^ bits ↔ 0 ≤ (n : Int) ∧ (n : Int) < 2 ^ bits
    constructor
    . intro hn
      exact ⟨Int.natCast_nonneg n, by exact_mod_cast hn⟩
    . intro hn
      exact_mod_cast hn.2
  | int n type bits => exact Iff.rfl
  | byte b bits =>
    have hb : b.toNat < 2 ^ 8 := b.toNat_lt
    exact iff_of_true (Nat.lt_of_lt_of_le hb (Nat.pow_le_pow_right (by decide) ht.1)) trivial
  | text _ _ _ hv h => exact fits_text ht hv h
  | _ => exact iff_of_true trivial trivial

/--
The arguments that values stand for, each at its type and of 256 bits at most. Values beyond the
types are dropped.
-/
def Makes (vs : List Value) (ts : List AbiType) (args : List AbiValue) : Prop :=
  List.Forall₂ (fun (p : Value × AbiType) a => StandsFor p.1 p.2 a ∧ a.FitsBits 256) (vs.zip ts)
    args

variable {ps : List Parameter} {ts : List AbiType} {vs : List Value} {args : List AbiValue}

theorem makes_nil_left : Makes [] ts args ↔ args = [] := by
  rw [Makes, List.zip_nil_left, List.forall₂_nil_left_iff]

theorem makes_nil_right : Makes vs [] args ↔ args = [] := by
  rw [Makes, List.zip_nil_right, List.forall₂_nil_left_iff]

theorem makes_cons {v : Value} {t : AbiType}
    : Makes (v :: vs) (t :: ts) args ↔
      ∃ a as, (StandsFor v t a ∧ a.FitsBits 256) ∧ Makes vs ts as ∧ args = a :: as := by
  rw [Makes, List.zip_cons_cons, List.forall₂_cons_left_iff]
  rfl

theorem argument_eq_ok {p : Parameter} {t : AbiType} {v : Value} {a : AbiValue}
    (hp : p.resolve? = some t) (ht : t.IsElementary)
    : argument p v = .ok a ↔ StandsFor v t a ∧ a.FitsBits 256 := by
  rw [← AbiValue.ofValue_eq_ok ht, argument, hp]
  exact Result.attach_eq_ok

theorem exists_of_resolveAll?_cons {p : Parameter}
    (h : Parameter.resolveAll? (p :: ps) = some ts)
    : ∃ t ts', p.resolve? = some t ∧ Parameter.resolveAll? ps = some ts' ∧ ts = t :: ts' := by
  rw [Parameter.resolveAll?] at h
  obtain ⟨t, ht, h⟩ := Option.bind_eq_some_iff.mp h
  obtain ⟨ts', hts, h⟩ := Option.bind_eq_some_iff.mp h
  cases h
  exact ⟨t, ts', ht, hts, rfl⟩

theorem length_of_resolveAll? (h : Parameter.resolveAll? ps = some ts) : ts.length = ps.length := by
  induction ps generalizing ts with
  | nil =>
    rw [Parameter.resolveAll?] at h
    cases h
    rfl
  | cons p ps ih =>
    obtain ⟨t, ts, _, hts, rfl⟩ := exists_of_resolveAll?_cons h
    rw [List.length_cons, List.length_cons, ih hts]

theorem isElementary_of_resolveAll? (h : Parameter.resolveAll? ps = some ts)
    (ha : ∀ t ∈ ts, t.isAggregate = false) : ∀ t ∈ ts, t.IsElementary := by
  induction ps generalizing ts with
  | nil =>
    rw [Parameter.resolveAll?] at h
    cases h
    intro t ht
    cases ht
  | cons p ps ih =>
    obtain ⟨t, ts, hp, hts, rfl⟩ := exists_of_resolveAll?_cons h
    rw [List.forall_mem_cons] at ha ⊢
    exact ⟨Parameter.isElementary_of_resolve? hp ha.1, ih hts ha.2⟩

theorem arguments_nil_left (index : Nat) (vs : List Value) : arguments index [] vs = .ok [] :=
  rfl

theorem arguments_nil_right (index : Nat) (ps : List Parameter) :
    arguments index ps [] = .ok [] := by
  cases ps <;> rfl

theorem arguments_eq_ok (index : Nat) (hr : Parameter.resolveAll? ps = some ts)
    (ht : ∀ t ∈ ts, t.IsElementary) : arguments index ps vs = .ok args ↔ Makes vs ts args := by
  induction ps generalizing index ts vs args with
  | nil =>
    rw [Parameter.resolveAll?] at hr
    cases hr
    rw [arguments_nil_left, makes_nil_right, Except.ok.injEq, eq_comm]
  | cons p ps ih =>
    obtain ⟨t, ts, hp, hts, rfl⟩ := exists_of_resolveAll?_cons hr
    rw [List.forall_mem_cons] at ht
    cases vs with
    | nil =>
      rw [arguments_nil_right, makes_nil_left, Except.ok.injEq, eq_comm]
    | cons v vs =>
      rw [arguments, makes_cons, bind_eq_ok]
      constructor
      . rintro ⟨a, ha, h⟩
        obtain ⟨as, has, h⟩ := bind_eq_ok.mp h
        cases h
        have ha := (argument_eq_ok hp ht.1).mp (Result.attach_eq_ok.mp ha)
        exact ⟨a, as, ha, (ih (index + 1) hts ht.2).mp has, rfl⟩
      . rintro ⟨a, as, ha, has, rfl⟩
        refine ⟨a, Result.attach_eq_ok.mpr ((argument_eq_ok hp ht.1).mpr ha), ?_⟩
        exact bind_eq_ok.mpr ⟨as, (ih (index + 1) hts ht.2).mpr has, rfl⟩

theorem makes_unique {args' : List AbiValue} (hr : Parameter.resolveAll? ps = some ts)
    (ht : ∀ t ∈ ts, t.IsElementary) (h : Makes vs ts args) (h' : Makes vs ts args') :
    args = args' := by
  rw [← arguments_eq_ok 0 hr ht] at h h'
  rw [h] at h'
  exact Except.ok.inj h'

theorem onlyFails_arguments (index : Nat) (ps : List Parameter) (vs : List Value) :
    Result.OnlyFails .codec (arguments index ps vs) := by
  induction ps generalizing index vs with
  | nil => exact Result.onlyFails_ok _
  | cons p ps ih =>
    cases vs with
    | nil => exact Result.onlyFails_ok _
    | cons v vs =>
      have hp : Result.OnlyFails .codec (argument p v) := by
        unfold argument
        split
        . exact Result.onlyFails_fail _
        . exact (AbiValue.onlyFails_ofValue _ v).attach _
      apply (hp.attach _).bind
      intro a
      apply (ih (index + 1) vs).bind
      intro as
      exact Result.onlyFails_ok _

theorem areOf_of_makes (ht : ∀ t ∈ ts, t.IsElementary) (hl : ts.length ≤ vs.length)
    (h : Makes vs ts args) : AbiValue.AreOf args ts := by
  induction ts generalizing vs args with
  | nil =>
    rw [makes_nil_right.mp h]
    exact .nil
  | cons t ts ih =>
    cases vs with
    | nil => cases hl
    | cons v vs =>
      rw [List.forall_mem_cons] at ht
      obtain ⟨a, as, ha, has, rfl⟩ := makes_cons.mp h
      rw [List.length_cons, List.length_cons, Nat.add_le_add_iff_right] at hl
      exact .cons ⟨ht.1, AbiValue.isOf_of_standsFor ht.1 ha.1, ha.2⟩ (ih ht.2 hl has)

theorem fits_of_makes (ht : ∀ t ∈ ts, t.IsElementary) (hl : ts.length ≤ vs.length)
    (h : Makes vs ts args)
    : List.Forall₂ (fun t a => a.FitsBits t.width) ts args ↔ ∀ p ∈ vs.zip ts, Fits p.1 p.2 := by
  induction ts generalizing vs args with
  | nil =>
    rw [makes_nil_right.mp h, List.zip_nil_right]
    exact iff_of_true .nil (by simp)
  | cons t ts ih =>
    cases vs with
    | nil => cases hl
    | cons v vs =>
      rw [List.forall_mem_cons] at ht
      obtain ⟨a, as, ha, has, rfl⟩ := makes_cons.mp h
      rw [List.length_cons, List.length_cons, Nat.add_le_add_iff_right] at hl
      rw [List.forall₂_cons, List.zip_cons_cons, List.forall_mem_cons, fits_iff ht.1 ha.1,
        ih ht.2 hl has]

theorem length_of_makes (h : Makes vs ts args) : args.length = min vs.length ts.length := by
  rw [← List.Forall₂.length_eq h, List.length_zip]

theorem callData_eq_ok {f : Function} (hr : Parameter.resolveAll? f.inputs = some ts)
    (ht : ∀ t ∈ ts, t.IsElementary) {data : Bytes}
    : f.callData vs = .ok data ↔
      ts.length ≤ vs.length ∧
        ∃ args, Makes vs ts args ∧ data = f.selector ++ AbiValue.standard args := by
  have hinputs := length_of_resolveAll? hr
  rw [Function.callData, bind_eq_ok]
  constructor
  . rintro ⟨args, hargs, h⟩
    have hmakes := (arguments_eq_ok 0 hr ht).mp (Result.attach_eq_ok.mp hargs)
    have hlength := length_of_makes hmakes
    -- There are as many arguments as inputs just if the values suffice.
    split at h
    . cases h
    . have hl : ts.length ≤ vs.length := by omega
      cases h
      rw [AbiValue.layout_parts (areOf_of_makes ht hl hmakes)]
      exact ⟨hl, args, hmakes, rfl⟩
  . rintro ⟨hl, args, hmakes, rfl⟩
    have hlength := length_of_makes hmakes
    refine ⟨args, Result.attach_eq_ok.mpr ((arguments_eq_ok 0 hr ht).mpr hmakes), ?_⟩
    rw [if_neg (by omega), AbiValue.layout_parts (areOf_of_makes ht hl hmakes)]
    rfl

theorem onlyFails_callData (f : Function) (vs : List Value) :
    Result.OnlyFails .codec (f.callData vs) := by
  apply ((onlyFails_arguments 0 f.inputs vs).attach _).bind
  intro args
  split
  . exact Result.onlyFails_fail _
  . exact Result.onlyFails_ok _

theorem decode?_callData {f : Function} {data : Bytes} (ht : ∀ t ∈ ts, t.IsElementary)
    (hl : ts.length ≤ vs.length) (h : Makes vs ts args)
    (hd : data = f.selector ++ AbiValue.standard args) (hs : data.length < 2 ^ 64)
    : decode? ts (data.drop 4) = some args := by
  have hdrop : data.drop 4 = AbiValue.standard args := by
    rw [hd]
    exact List.drop_left' f.length_selector
  rw [hdrop]
  apply AbiValue.decode?_standard (areOf_of_makes ht hl h)
  rw [hd, List.length_append] at hs
  omega

/--
The data of a call are the selector and the standard encoding of what the values stand for, which
can be read back from it. The integers among the arguments are held to 256 bits; they are within
the widths of their types exactly if all values fit these.
-/
theorem callData_standard (f : Function) (ts : List AbiType) (vs : List Value)
    (hr : Parameter.resolveAll? f.inputs = some ts) (ha : ∀ t ∈ ts, t.isAggregate = false)
    : (∀ data, f.callData vs = .ok data → ∃ args, Makes vs ts args ∧ AbiValue.AreOf args ts ∧
        data = f.selector ++ AbiValue.standard args ∧
        (data.length < 2 ^ 64 → decode? ts (data.drop 4) = some args) ∧
        (List.Forall₂ (fun t a => a.FitsBits t.width) ts args ↔
          ∀ p ∈ vs.zip ts, Fits p.1 p.2)) ∧
      ((∃ data, f.callData vs = .ok data) ↔
        ts.length ≤ vs.length ∧ ∃ args, Makes vs ts args) ∧
      Result.OnlyFails .codec (f.callData vs) := by
  have ht := isElementary_of_resolveAll? hr ha
  refine ⟨?_, ?_, onlyFails_callData f vs⟩
  . intro data h
    obtain ⟨hl, args, hmakes, hd⟩ := (callData_eq_ok hr ht).mp h
    exact ⟨args, hmakes, areOf_of_makes ht hl hmakes, hd, decode?_callData ht hl hmakes hd,
      fits_of_makes ht hl hmakes⟩
  . constructor
    . rintro ⟨data, h⟩
      obtain ⟨hl, args, hmakes, _⟩ := (callData_eq_ok hr ht).mp h
      exact ⟨hl, args, hmakes⟩
    . rintro ⟨hl, args, hmakes⟩
      exact ⟨_, (callData_eq_ok hr ht).mpr ⟨hl, args, hmakes, rfl⟩⟩

def setLevel : Function :=
  ⟨"setLevel", [⟨"level", "uint8", []⟩], []⟩

theorem callData_overflow :
    Parameter.resolveAll? setLevel.inputs = some [.uint 8] ∧ ¬ Fits (.uint256 300) (.uint 8) ∧
      ∃ data, setLevel.callData [.uint256 300] = .ok data ∧
        data = setLevel.selector ++ AbiValue.standard [.uint 300] ∧
        decode? [.uint 8] (data.drop 4) = some [.uint 300] := by
  have hr : Parameter.resolveAll? setLevel.inputs = some [.uint 8] := by
    rw [setLevel, Parameter.resolveAll?, Parameter.resolve?_of_elementary? (by decide) rfl,
      Parameter.resolveAll?]
    rfl
  have ha : ∀ t ∈ [AbiType.uint 8], t.isAggregate = false := by
    intro t ht
    rw [List.mem_singleton.mp ht]
    rfl
  have hfit : ¬ Fits (.uint256 300) (.uint 8) := by
    rintro ⟨_, h⟩
    revert h
    decide
  obtain ⟨hdata, hmakes, _⟩ := callData_standard setLevel [.uint 8] [.uint256 300] hr ha
  have hthree : Makes [.uint256 300] [.uint 8] [.uint 300] := by
    refine .cons ⟨.uint 300 ⟨false, some 256⟩ 8, ?_⟩ .nil
    show 300 < 2 ^ 256
    decide
  obtain ⟨data, h⟩ := hmakes.mpr ⟨Nat.le_refl _, [.uint 300], hthree⟩
  obtain ⟨args, hargs, _, hd, hread, _⟩ := hdata data h
  rw [makes_unique hr (isElementary_of_resolveAll? hr ha) hargs hthree] at hd hread
  refine ⟨hr, hfit, data, h, hd, hread ?_⟩
  have hsize : data.length = 36 := by
    rw [hd, List.length_append, setLevel.length_selector]
    rfl
  rw [hsize]
  decide

end Runbook.Abi
