import Runbook.Proofs.Amount.Text
import Runbook.Proofs.Text.Casing

/-!
This module contains the texts that write an amount when no token symbols are known: an expression,
spaces, and one of the common units or none.
-/

namespace Runbook

open Text

/--
The characters of an amount's expression. A large `P` is read as the small one.
-/
def isExpressionChar (c : Char) : Bool :=
  Calc.isArithmetic [c] || c == 'P'

/--
The text is the expression `e`, whose characters all satisfy `isChar`, then spaces, and then `unit`
in any letter case or no unit.
-/
structure Written (isChar : Char → Bool) (text e : List Char) (unit : Option String) : Prop where
  chars : ∀ c ∈ e, isChar c
  common : ∀ name, unit = some name → name ∈ commonDenominations
  text_eq : ∃ spaces u, text = e ++ List.replicate spaces ' ' ++ u ∧
    u.map Char.toLower = (unit.getD "").toList

theorem isArithmetic_toLower (c : Char) : Calc.isArithmetic [c.toLower] = isExpressionChar c := by
  by_cases hascii : c.toNat < 128
  . apply forall_ascii (p := fun c => Calc.isArithmetic [c.toLower] = isExpressionChar c) _ hascii
    decide +kernel
  . rw [toLower_of_not_ascii hascii]
    have hp : c ≠ 'P' := by
      rintro rfl
      exact hascii (by decide)
    simp [isExpressionChar, hp]

theorem toNat_lt_of_toLower {c : Char} (h : c.toLower.toNat < 128) : c.toNat < 128 := by
  by_contra hascii
  rw [toLower_of_not_ascii hascii] at h
  exact hascii h

theorem isArithmetic_append (cs cs' : List Char)
    : Calc.isArithmetic (cs ++ cs') = (Calc.isArithmetic cs && Calc.isArithmetic cs') :=
  List.all_append

theorem isArithmetic_iff {cs : List Char}
    : Calc.isArithmetic cs ↔ ∀ c ∈ cs, Calc.isArithmetic [c] := by
  simp [Calc.isArithmetic]

theorem isArithmetic_of_sublist {cs cs' : List Char} (hsub : cs'.Sublist cs)
    (h : Calc.isArithmetic cs) : Calc.isArithmetic cs' := by
  rw [isArithmetic_iff] at h ⊢
  exact fun c hc => h c (hsub.subset hc)

theorem toNat_lt_of_isArithmetic {c : Char} (h : Calc.isArithmetic [c]) : c.toNat < 128 := by
  simp only [Calc.isArithmetic, List.all_cons, List.all_nil, Bool.and_true, Bool.or_eq_true] at h
  rcases h with h | h
  . simp only [isHexDigit, Char.isDigit, Bool.or_eq_true, Bool.and_eq_true, decide_eq_true_eq] at h
    rcases h with (h | h) | h
    . exact Nat.lt_of_le_of_lt (UInt32.le_iff_toNat_le.mp h.2) (by decide)
    . exact Nat.lt_of_le_of_lt (UInt32.le_iff_toNat_le.mp h.2) (by decide)
    . exact Nat.lt_of_le_of_lt (UInt32.le_iff_toNat_le.mp h.2) (by decide)
  . have hlist : "+-*/.%&^()<>= ~|xXp".toList.all (·.toNat < 128) := by decide
    exact of_decide_eq_true (List.all_eq_true.mp hlist c (List.contains_iff_mem.mp h))

theorem isPlain_of_isArithmetic_trimChars {cs : List Char} (h : Calc.isArithmetic (trimChars cs))
    : ∀ c ∈ cs, isPlain c := by
  obtain ⟨front, back, hcs, hfront, hback⟩ := exists_trimChars cs
  have hblank {c : Char} (hc : isBlank c) : isPlain c := by
    rw [isPlain, hc, Bool.or_true]
  rw [hcs, List.forall_mem_append, List.forall_mem_append]
  refine ⟨⟨fun c hc => hblank (hfront c hc), ?_⟩, fun c hc => hblank (hback c hc)⟩
  intro c hc
  have hchar := isArithmetic_iff.mp h c hc
  have hkelvin : c ≠ 'k' := by
    rintro rfl
    exact absurd hchar (by decide)
  simp [isPlain, toNat_lt_of_isArithmetic hchar, hkelvin]

theorem length_le_of_common
    : ∀ name ∈ commonDenominations, ∀ unit ∈ "" :: commonDenominations,
        Calc.isArithmetic (name.toList.take (name.length - unit.length)) →
        name.toList.drop (name.length - unit.length) = unit.toList → name.length ≤ unit.length := by
  decide

theorem splits_common {rest : List Char} {unit : Option String} (harith : Calc.isArithmetic rest)
    (hunit : ∀ name, unit = some name → name ∈ commonDenominations)
    : Splits (commonDenominations ++ []) (rest ++ (unit.getD "").toList) rest unit := by
  refine ⟨rfl, ?_, ?_⟩
  . intro name hname
    have hmem := hunit name hname
    refine ⟨List.mem_append_left _ hmem, ?_, harith⟩
    rintro rfl
    exact absurd hmem (by decide)
  . rintro name hname ⟨rest', htext, harith'⟩
    rw [List.append_nil] at hname
    have hmem : unit.getD "" ∈ "" :: commonDenominations := by
      cases unit with
      | none => exact List.mem_cons_self ..
      | some name' => exact List.mem_cons_of_mem _ (hunit name' rfl)
    generalize unit.getD "" = u at htext hmem ⊢
    rcases List.append_eq_append_iff.mp htext with ⟨front, hrest, hu⟩ | ⟨front, hrest, hu⟩
    . rw [← String.length_toList, ← String.length_toList, hu, List.length_append]
      exact Nat.le_add_left ..
    . have hlength : name.length - u.length = front.length := by
        rw [← String.length_toList, ← String.length_toList, hu, List.length_append,
          Nat.add_sub_cancel]
      apply length_le_of_common name hname u hmem
      . rw [hlength, hu, List.take_left']
        . rw [hrest, isArithmetic_append, Bool.and_eq_true] at harith
          exact harith.2
        . rfl
      . rw [hlength, hu, List.drop_left']
        rfl

theorem lower_trim_of_ascii {text : String} (h : ∀ c ∈ text.toList, c.toNat < 128)
    : (lower (trim text)).toList = trimChars (text.toList.map Char.toLower) := by
  obtain ⟨front, back, hchars, _⟩ := exists_trimChars text.toList
  have hascii : ∀ c ∈ trimChars text.toList, c.toNat < 128 := by
    intro c hc
    apply h
    rw [hchars]
    exact List.mem_append_left _ (List.mem_append_right _ hc)
  unfold lower trim
  rw [String.toList_ofList, String.toList_ofList, lowerChars_of_ascii hascii,
    trimChars_map isBlank_toLower]

namespace Written

variable {text e : List Char} {unit : Option String}

theorem isArithmetic (h : Written isExpressionChar text e unit)
    : Calc.isArithmetic (e.map Char.toLower) := by
  rw [isArithmetic_iff, List.forall_mem_map]
  intro c hc
  rw [isArithmetic_toLower]
  exact h.chars c hc

theorem forall_mem {isChar : Char → Bool} (h : Written isChar text e unit) {p : Char → Prop}
    (hexpression : ∀ c, isChar c → p c) (hspace : p ' ')
    (hunit : ∀ c, ∀ name ∈ commonDenominations, c.toLower ∈ name.toList → p c)
    : ∀ c ∈ text, p c := by
  obtain ⟨spaces, u, rfl, hu⟩ := h.text_eq
  intro c hc
  rcases List.mem_append.mp hc with hc | hc
  . rcases List.mem_append.mp hc with hc | hc
    . exact hexpression c (h.chars c hc)
    . rw [List.eq_of_mem_replicate hc]
      exact hspace
  . have hmem : c.toLower ∈ (unit.getD "").toList := hu ▸ List.mem_map_of_mem hc
    cases hname : unit with
    | none =>
      rw [hname] at hmem
      cases hmem
    | some name =>
      rw [hname] at hmem
      exact hunit c name (h.common name hname) hmem

theorem ascii (h : Written isExpressionChar text e unit) : ∀ c ∈ text, c.toNat < 128 := by
  refine h.forall_mem ?_ (by decide) ?_
  . intro c hc
    rw [← isArithmetic_toLower] at hc
    exact toNat_lt_of_toLower (toNat_lt_of_isArithmetic hc)
  . intro c name hname hc
    have hnames : ∀ name ∈ commonDenominations, name.toList.all (·.toNat < 128) := by decide
    exact toNat_lt_of_toLower (of_decide_eq_true (List.all_eq_true.mp (hnames name hname) _ hc))

theorem not_mem (h : Written isExpressionChar text e unit) : '@' ∉ text ∧ '$' ∉ text := by
  have hnone : ∀ c ∈ text, c ≠ '@' ∧ c ≠ '$' := by
    refine h.forall_mem ?_ (by decide) ?_
    . intro c hc
      constructor
      . rintro rfl
        exact absurd hc (by decide)
      . rintro rfl
        exact absurd hc (by decide)
    . intro c name hname hc
      have hnames : ∀ name ∈ commonDenominations, '@' ∉ name.toList ∧ '$' ∉ name.toList := by decide
      constructor
      . rintro rfl
        exact (hnames name hname).1 hc
      . rintro rfl
        exact (hnames name hname).2 hc
  exact ⟨fun hmem => (hnone _ hmem).1 rfl, fun hmem => (hnone _ hmem).2 rfl⟩

theorem splits {text : String} (h : Written isExpressionChar text.toList e unit)
    : ∃ rest,
        Splits (commonDenominations ++ []) (lower (trim text)).toList rest unit ∧
        trimChars rest = trimChars (e.map Char.toLower) ∧
        Calc.isArithmetic rest := by
  rw [lower_trim_of_ascii h.ascii]
  obtain ⟨spaces, u, htext, hu⟩ := h.text_eq
  have hspaces : ∀ c ∈ List.replicate spaces ' ', isBlank c := by
    intro c hc
    rw [List.eq_of_mem_replicate hc]
    decide
  have harith : Calc.isArithmetic (e.map Char.toLower ++ List.replicate spaces ' ') := by
    rw [isArithmetic_append, h.isArithmetic, Bool.true_and, isArithmetic_iff]
    intro c hc
    rw [List.eq_of_mem_replicate hc]
    decide
  have htrim : trimChars (e.map Char.toLower ++ List.replicate spaces ' ')
      = trimChars (e.map Char.toLower) := by
    rw [← List.nil_append (e.map Char.toLower)]
    exact trimChars_append (fun c hc => by cases hc) hspaces _
  rw [htext, List.map_append, List.map_append, List.map_replicate, hu, ← htrim]
  rw [show ' '.toLower = ' ' from rfl]
  generalize e.map Char.toLower ++ List.replicate spaces ' ' = cs at harith ⊢
  -- The blanks between the expression and the unit are trimmed only where there is no unit.
  cases unit with
  | none =>
    have htrimmed := isArithmetic_of_sublist (trimChars_sublist cs) harith
    refine ⟨trimChars cs, ?_, trimChars_trimChars cs, htrimmed⟩
    have hsplits := splits_common htrimmed h.common
    simpa only [Option.getD_none, String.toList_empty, List.append_nil] using hsplits
  | some name =>
    have hrest := isArithmetic_of_sublist (List.dropWhile_sublist isBlank (l := cs)) harith
    have hmem := h.common name rfl
    have hnames : ∀ name ∈ commonDenominations,
        name.toList ≠ [] ∧ name.toList.all (!isBlank ·) := by decide
    have hname : ∀ c ∈ name.toList, isBlank c = false := by
      simpa using (hnames name hmem).2
    refine ⟨cs.dropWhile isBlank, ?_, trimChars_dropWhile cs, hrest⟩
    rw [Option.getD_some, trimChars_append_of_not_isBlank (hnames name hmem).1 hname]
    exact splits_common hrest h.common

theorem parse_eq_ok {text : String} (h : Written isExpressionChar text.toList e unit)
    (args : List String) (wallets : Directory) {a : Amount}
    : Amount.parse [] args wallets text = .ok a ↔
      ∃ n : Int,
        Calc.evaluate (lower (String.ofList e)) [] = .ok (.int n) ∧
        n * unitFactor unit = a.value ∧
        a.value < 2 ^ 256 ∧
        a.denomination = unit := by
  have hascii : ∀ c ∈ e, c.toNat < 128 := by
    intro c hc
    have harith := h.chars c hc
    rw [← isArithmetic_toLower] at harith
    exact toNat_lt_of_toLower (toNat_lt_of_isArithmetic harith)
  have hlower : lower (String.ofList e) = String.ofList (e.map Char.toLower) := by
    rw [lower, String.toList_ofList, lowerChars_of_ascii hascii]
  obtain ⟨rest, hsplits, htrim, harith⟩ := h.splits
  rw [Amount.parse_eq_ok, Amount.fill_of_not_mem h.not_mem.1 h.not_mem.2, hlower]
  constructor
  . rintro ⟨_, heq, htext⟩
    cases heq
    obtain ⟨rest', n, hsplits', _, heval, hfactor, hlt⟩ := Amount.ofText_eq_ok.mp htext
    obtain ⟨rfl, hunit⟩ := hsplits'.unique hsplits
    rw [← Calc.evaluate_trim, htrim, Calc.evaluate_trim] at heval
    rw [hunit] at hfactor
    exact ⟨n, heval, hfactor, hlt, hunit⟩
  . rintro ⟨n, heval, hfactor, hlt, rfl⟩
    rw [← Calc.evaluate_trim, ← htrim, Calc.evaluate_trim] at heval
    refine ⟨text, rfl, Amount.ofText_eq_ok.mpr ⟨rest, n, hsplits, ?_, heval, hfactor, hlt⟩⟩
    exact isArithmetic_of_sublist (trimChars_sublist rest) harith

end Written

theorem exists_written_of_parse {args : List String} {wallets : Directory} {text : String}
    {a : Amount} (hwallets : '@' ∉ text.toList) (hargs : '$' ∉ text.toList)
    (h : Amount.parse [] args wallets text = .ok a)
    : ∃ e, Written isExpressionChar (trim text).toList e a.denomination := by
  rw [Amount.parse_eq_ok, Amount.fill_of_not_mem hwallets hargs] at h
  obtain ⟨_, heq, htext⟩ := h
  cases heq
  obtain ⟨rest, n, hsplits, harith, _⟩ := Amount.ofText_eq_ok.mp htext
  rw [List.append_nil] at hsplits
  have hcommon : ∀ name, a.denomination = some name → name ∈ commonDenominations :=
    fun name hname => (hsplits.fits name hname).1
  have hchars := hsplits.text_eq
  rw [lower, String.toList_ofList, trim, String.toList_ofList] at hchars
  -- All characters are plain, so nothing but ASCII letters was made small.
  have hplain : ∀ c ∈ lowerChars [] (trimChars text.toList), isPlain c := by
    rw [hchars, List.forall_mem_append]
    refine ⟨isPlain_of_isArithmetic_trimChars harith, ?_⟩
    have hnames : ∀ name ∈ "" :: commonDenominations, name.toList.all isPlain := by decide
    apply List.all_eq_true.mp (hnames _ ?_)
    cases hname : a.denomination with
    | none => exact List.mem_cons_self ..
    | some name => exact List.mem_cons_of_mem _ (hcommon name hname)
  rw [lowerChars_of_isPlain hplain] at hchars
  have hrest : Calc.isArithmetic rest := by
    cases hname : a.denomination with
    | none =>
      rw [hname, Option.getD_none, String.toList_empty, List.append_nil] at hchars
      rw [← hchars, ← trimChars_trimChars, ← trimChars_map isBlank_toLower, hchars]
      exact harith
    | some name => exact (hsplits.fits name hname).2.2
  obtain ⟨e, u, htrim, rfl, hu⟩ := List.map_eq_append_iff.mp hchars
  refine ⟨e, ?_, hcommon, 0, u, ?_, hu⟩
  . intro c hc
    rw [← isArithmetic_toLower]
    exact isArithmetic_iff.mp hrest _ (List.mem_map_of_mem hc)
  . rw [trim, String.toList_ofList, htrim, List.replicate_zero, List.append_nil]

/--
A text of an expression, spaces and a common unit or none stands for the integer that the expression
has as its value, counted in the unit, if this is an amount of 256 bits; otherwise it cannot be
resolved. Of the texts without tokens no others stand for an amount.
-/
theorem Amount.parse_common (args : List String) (wallets : Directory) (text : String)
    : (∀ e unit, Written isExpressionChar text.toList e unit →
        (∀ n : Int, Calc.evaluate (lower (String.ofList e)) [] = .ok (.int n) →
          0 ≤ n * unitFactor unit → n * unitFactor unit < 2 ^ 256 →
          parse [] args wallets text = .ok ⟨(n * unitFactor unit).toNat, unit⟩) ∧
        ((∀ n : Int, Calc.evaluate (lower (String.ofList e)) [] = .ok (.int n) →
            n * unitFactor unit < 0 ∨ 2 ^ 256 ≤ n * unitFactor unit) →
          ∃ fault, parse [] args wallets text = .error fault ∧ fault.kind = .resolution)) ∧
      ('@' ∉ text.toList → '$' ∉ text.toList → ∀ a, parse [] args wallets text = .ok a →
        ∃ e, Written isExpressionChar (trim text).toList e a.denomination) := by
  refine ⟨?_, fun hwallets hargs a ha => exists_written_of_parse hwallets hargs ha⟩
  intro e unit hwritten
  constructor
  . intro n heval hnonneg hlt
    refine (hwritten.parse_eq_ok args wallets).mpr ⟨n, heval, ?_, ?_, rfl⟩
    . exact (Int.toNat_of_nonneg hnonneg).symm
    . dsimp only
      omega
  . intro hnone
    cases hparse : parse [] args wallets text with
    | error fault => exact ⟨fault, rfl, onlyFails_parse _ _ _ _ fault hparse⟩
    | ok a =>
      obtain ⟨n, heval, hfactor, hlt, _⟩ := (hwritten.parse_eq_ok args wallets).mp hparse
      have := hnone n heval
      omega

theorem Amount.parse_fiveEther
    : Written isExpressionChar "0X5 Ether".toList "0X5".toList (some "ether") ∧
      Calc.evaluate (lower "0X5") [] = .ok (.int 5) ∧
      parse [] [] (Wallets.directory []) "0X5 Ether" = .ok ⟨5 * 10 ^ 18, some "ether"⟩ ∧
      ∃ e, Written isExpressionChar (trim "0X5 Ether").toList e (some "ether") := by
  have hwritten : Written isExpressionChar "0X5 Ether".toList "0X5".toList (some "ether") := by
    refine ⟨List.all_eq_true.mp (by decide), ?_, 1, "Ether".toList, by decide, by decide⟩
    intro name hname
    cases hname
    decide
  have heval : Calc.evaluate (lower "0X5") [] = .ok (.int 5) := by
    rw [show lower "0X5" = "0x5" by decide]
    exact @Calc.evaluate_numeral "0x5".toList _ _ _ (by decide) rfl (Calc.readOperand_int 5 []) rfl
  have hparse := (parse_common [] (Wallets.directory []) "0X5 Ether").1 _ _ hwritten |>.1 5 heval
    (by decide) (by decide)
  exact ⟨hwritten, heval, hparse,
    (parse_common [] (Wallets.directory []) "0X5 Ether").2 (by decide) (by decide) _ hparse⟩

theorem Amount.parse_largeMark
    : parse [] [] (Wallets.directory []) "0x1P3" = .ok ⟨8, none⟩ ∧
      ¬ ∃ e unit, Written (fun c => Calc.isArithmetic [c]) (trim "0x1P3").toList e unit := by
  constructor
  . have hwritten : Written isExpressionChar "0x1P3".toList "0x1P3".toList none :=
      ⟨List.all_eq_true.mp (by decide), fun name hname => (by cases hname), 0, [], by decide, rfl⟩
    have heval : Calc.evaluate (lower "0x1P3") [] = .ok (.int 8) := by
      rw [show lower "0x1P3" = "0x1p3" by decide]
      exact @Calc.evaluate_numeral "0x1p3".toList _ _ _ (by decide) rfl
        (Calc.readOperand_float ⟨8, 0⟩ []) rfl
    exact (hwritten.parse_eq_ok [] _).mpr ⟨8, heval, by decide, by decide, rfl⟩
  . rintro ⟨e, unit, hwritten⟩
    have hnone : ∀ c ∈ (trim "0x1P3").toList, c ≠ 'P' := by
      refine hwritten.forall_mem ?_ (by decide) ?_
      . rintro c hc rfl
        exact absurd hc (by decide)
      . rintro c name hname hc rfl
        have hnames : ∀ name ∈ commonDenominations, 'p' ∉ name.toList := by decide
        exact hnames name hname hc
    exact hnone 'P' (by decide) rfl

end Runbook
