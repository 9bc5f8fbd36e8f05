import Runbook.Proofs.Amount.Written
import Runbook.Proofs.Calc.Casing
import Runbook.Proofs.Calc.Rounding

/-!
This module contains which expressions that have a value are taken for the expression of an amount:
the check of their characters knows no blank but the space.
-/

namespace Runbook

open Text

namespace Calc

theorem isExpressionChar_of_isHexDigit {c : Char} (h : isHexDigit c) : isExpressionChar c := by
  simp [isExpressionChar, isArithmetic, h]

theorem eq_space_of_isArithmetic {c : Char} (h : isArithmetic [c]) (hblank : isBlank c)
    : c = ' ' := by
  have hcodes : ∀ n ∈ blankCodes, isArithmetic [Char.ofNat n] → Char.ofNat n = ' ' := by decide
  have hspace := hcodes _ (mem_blankCodes hblank)
  rw [Char.ofNat_toNat] at hspace
  exact hspace h

theorem Literal.isExpressionChar (l : Literal) : ∀ c ∈ l.chars, isExpressionChar c := by
  have hdigits : ∀ c ∈ l.whole ++ l.fraction.getD [], Runbook.isExpressionChar c := by
    intro c hc
    have hdigit := l.wellFormed.digits c hc
    unfold Spelling.isDigit at hdigit
    split at hdigit
    . exact isExpressionChar_of_isHexDigit hdigit
    . exact isExpressionChar_of_isHexDigit (isHexDigit_of_isDigit hdigit)
  have hexponent : ∀ x ∈ l.exponent, ∀ c ∈ x.chars, Runbook.isExpressionChar c := by
    intro x hx
    rw [Exponent.chars, List.forall_mem_cons, List.forall_mem_append]
    refine ⟨?_, ?_, ?_⟩
    . have hmark := l.wellFormed.mark x hx
      unfold Spelling.isMark at hmark
      split at hmark
      all_goals
        rw [Bool.or_eq_true, beq_iff_eq, beq_iff_eq] at hmark
        rcases hmark with hmark | hmark <;> rw [hmark] <;> decide
    . intro c hc
      rcases l.wellFormed.sign x hx c (Option.mem_toList.mp hc) with rfl | rfl <;> decide
    . intro c hc
      exact isExpressionChar_of_isHexDigit (isHexDigit_of_isDigit (l.wellFormed.exponent x hx c hc))
  have hbody : ∀ c ∈ l.body, Runbook.isExpressionChar c := by
    rw [List.forall_mem_append] at hdigits
    rw [Spelling.body, List.forall_mem_append, List.forall_mem_append]
    refine ⟨hdigits.1, ?_, ?_⟩
    . cases hfraction : l.fraction with
      | none => simp
      | some ds =>
        rw [hfraction] at hdigits
        rw [Option.map_some, Option.getD_some, List.forall_mem_cons]
        exact ⟨by decide, hdigits.2⟩
    . cases hx : l.exponent with
      | none => simp
      | some x => exact hexponent x hx
  -- What is left is the mark in front of the digits.
  unfold Spelling.chars
  cases hmark : l.hexMark with
  | none => exact hbody
  | some x =>
    rw [List.forall_mem_cons, List.forall_mem_cons]
    refine ⟨by decide, ?_, hbody⟩
    rcases l.wellFormed.hexMark x hmark with rfl | rfl <;> decide

theorem Lexeme.isExpressionChar_or {l : Lexeme} (h : ∀ b, l ≠ .bool b)
    : ∀ c ∈ l.chars, isExpressionChar c ∨ c = '!' := by
  suffices hall : (l.chars.all fun c => isExpressionChar c || c == '!') = true by
    simpa [List.all_eq_true] using hall
  cases l with
  | literal l =>
    rw [List.all_eq_true]
    intro c hc
    rw [l.isExpressionChar c hc]
    rfl
  | bool b => exact absurd rfl (h b)
  | op s =>
    rcases s with ((_ | _) | (_ | _ | _ | _ | _ | _) | (_ | _ | _ | _)
      | (_ | _ | _ | _ | _ | _ | _)) | _ | _
    all_goals decide
  | lparen => decide
  | rparen => decide

theorem Spelled.mem_of_mem_chars {ls : List Lexeme} {cs : List Char} (h : Spelled ls cs)
    {l : Lexeme} (hl : l ∈ ls) {c : Char} (hc : c ∈ l.chars) : c ∈ cs := by
  induction h with
  | nil => cases hl
  | blank _ _ _ ih => exact List.mem_cons_of_mem _ (ih hl)
  | lexeme l' _ ih =>
    rcases List.mem_cons.mp hl with rfl | hl
    . exact List.mem_append_left _ hc
    . exact List.mem_append_right _ (ih hl)

theorem Spelled.forall_mem {ls : List Lexeme} {cs : List Char} (h : Spelled ls cs)
    {p : Char → Prop} (hblank : ∀ c ∈ cs, isBlank c → p c) (hlexeme : ∀ l ∈ ls, ∀ c ∈ l.chars, p c)
    : ∀ c ∈ cs, p c := by
  induction h with
  | nil =>
    intro c hc
    cases hc
  | blank c hc _ ih =>
    rw [List.forall_mem_cons] at hblank ⊢
    exact ⟨hblank.1 hc, ih hblank.2 hlexeme⟩
  | lexeme l _ ih =>
    rw [List.forall_mem_cons] at hlexeme
    rw [List.forall_mem_append] at hblank ⊢
    exact ⟨hlexeme.1, ih hblank.2 hlexeme.2⟩

theorem Lexeme.eq_bool {l : Lexeme} {b : Bool} (h : l.token = .bool b) : l = .bool b := by
  cases l with
  | bool b' =>
    cases h
    rfl
  | literal l =>
    unfold Lexeme.token Spelling.token at h
    cases hn : l.number <;> simp [hn] at h
  | _ => cases h

theorem isArithmetic_of_tokens {text : String} {ts : List Token} (h : tokens text = .ok ts)
    : isArithmetic text.toList ↔
      (∀ b, Token.bool b ∉ ts) ∧ '!' ∉ text.toList ∧ 'P' ∉ text.toList ∧
        ∀ c ∈ text.toList, isBlank c → c = ' ' := by
  obtain ⟨ls, hspelled, rfl⟩ := exists_spelled h
  constructor
  . intro harith
    have hchar := isArithmetic_iff.mp harith
    have hnone {c : Char} (hc : isArithmetic [c] = false) : c ∉ text.toList := by
      intro hmem
      rw [hchar c hmem] at hc
      cases hc
    -- The keywords are seen by one of their letters that no expression has.
    refine ⟨?_, hnone (by decide), hnone (by decide), ?_⟩
    . intro b hb
      obtain ⟨l, hl, htoken⟩ := List.mem_map.mp hb
      obtain rfl := Lexeme.eq_bool htoken
      cases b with
      | true => exact hnone (by decide) (hspelled.mem_of_mem_chars hl (c := 't') (by decide))
      | false => exact hnone (by decide) (hspelled.mem_of_mem_chars hl (c := 's') (by decide))
    . intro c hc hblank
      exact eq_space_of_isArithmetic (hchar c hc) hblank
  . rintro ⟨hbool, hbang, hmark, hspaces⟩
    -- A text that is taken apart consists of blanks and of the characters of its tokens.
    rw [isArithmetic_iff]
    refine hspelled.forall_mem ?_ ?_
    . intro c hc hblank
      rw [hspaces c hc hblank]
      decide
    . intro l hl c hc
      have hnobool : ∀ b, l ≠ .bool b := by
        rintro b rfl
        exact hbool b (List.mem_map_of_mem hl)
      have hmem := hspelled.mem_of_mem_chars hl hc
      have hchar : isExpressionChar c := by
        refine (Lexeme.isExpressionChar_or hnobool c hc).resolve_right ?_
        rintro rfl
        exact hbang hmem
      rw [isExpressionChar, Bool.or_eq_true, beq_iff_eq] at hchar
      refine hchar.resolve_right ?_
      rintro rfl
      exact hmark hmem

def Lexeme.IsNumeric : Lexeme → Prop
  | bool _ | op .bang | op (.binary (.connective _)) | op (.binary (.comparison _)) => False
  | _ => True

theorem Lexeme.IsNumeric.isExpressionChar {l : Lexeme} (h : l.IsNumeric)
    : ∀ c ∈ l.chars, isExpressionChar c := by
  have hbool : ∀ b, l ≠ .bool b := by
    rintro b rfl
    exact h
  intro c hc
  refine (isExpressionChar_or hbool c hc).resolve_right ?_
  rintro rfl
  cases l with
  | op s =>
    rcases s with ((_ | _) | (_ | _ | _ | _ | _ | _) | (_ | _ | _ | _)
      | (_ | _ | _ | _ | _ | _ | _)) | _ | _
    all_goals
      first
      | exact h
      | exact absurd hc (by decide)
  | literal l => exact absurd (l.isExpressionChar _ hc) (by decide)
  | bool b => exact h
  | lparen => exact absurd hc (by decide)
  | rparen => exact absurd hc (by decide)

theorem UnaryOp.kind_of_apply {op : UnaryOp} {a v : Value} (h : op.apply a = .ok v)
    (hkind : v.kind ≠ .boolean) : op ≠ .not ∧ a.kind ≠ .boolean := by
  unfold UnaryOp.apply at h
  split at h
  case h_5 =>
    cases h
    exact absurd rfl hkind
  all_goals
    cases h
    try exact ⟨by decide, Kind.noConfusion⟩

theorem Value.kind_of_collapse {a : Value} {n : Int} (h : a.collapse = .ok (.int n))
    : a.kind ≠ .boolean := by
  cases a with
  | bool b => cases h
  | _ => exact Kind.noConfusion

theorem Value.kind_of_decimal? {a : Value} {d : Number.Decimal} (h : a.decimal? = some d)
    : a.kind ≠ .boolean := by
  cases a with
  | bool b => cases h
  | _ => exact Kind.noConfusion

theorem Phrase.isNumeric {level : Nat} {e : Tree} {ls : List Lexeme} (h : Phrase level e ls)
    {v : Value} (heval : e.eval = .ok v) (hkind : v.kind ≠ .boolean) : ∀ l ∈ ls, l.IsNumeric := by
  induction h generalizing v with
  | literal l => simp [Lexeme.IsNumeric]
  | bool b =>
    cases heval
    exact absurd rfl hkind
  | unary op _ ih =>
    obtain ⟨a, ha, happly⟩ := bind_eq_ok.mp heval
    obtain ⟨hop, ha'⟩ := UnaryOp.kind_of_apply happly hkind
    rw [List.forall_mem_cons]
    refine ⟨?_, ih ha ha'⟩
    cases op with
    | not => exact absurd rfl hop
    | _ => trivial
  | parens _ ih =>
    rw [List.cons_append, List.forall_mem_cons, List.forall_mem_append]
    exact ⟨trivial, ih heval hkind, by simp [Lexeme.IsNumeric]⟩
  | binary op _ _ ihl ihr =>
    obtain ⟨a, ha, happly⟩ := bind_eq_ok.mp heval
    obtain ⟨b, hb, happly⟩ := bind_eq_ok.mp happly
    rw [List.forall_mem_append, List.forall_mem_cons]
    obtain ⟨r, rfl⟩ | ⟨c, m, n, r, rfl, rfl, rfl, _⟩ | ⟨c, x, y, d, rfl, hx, hy, _⟩
      | ⟨c, m, n, r, rfl, hm, hn, _⟩ := BinaryOp.apply_cases happly
    . exact absurd rfl hkind
    . exact ⟨ihl ha Kind.noConfusion, trivial, ihr hb Kind.noConfusion⟩
    . exact ⟨ihl ha (Value.kind_of_decimal? hx), trivial, ihr hb (Value.kind_of_decimal? hy)⟩
    . exact ⟨ihl ha (Value.kind_of_collapse hm), trivial, ihr hb (Value.kind_of_collapse hn)⟩
  | looser _ _ ih => exact ih heval hkind

theorem isExpressionChar_of_evaluate {text : String} {n : Int}
    (h : evaluate text [] = .ok (.int n)) : ∀ c ∈ text.toList, isExpressionChar c ∨ isBlank c := by
  obtain ⟨ts, _, htokens, hvalue, _⟩ := evaluate_eq_ok.mp h
  obtain ⟨ls, hspelled, rfl⟩ := exists_spelled htokens
  obtain ⟨e, hphrase, houtcome⟩ := exists_phrase_of_valueOf hvalue
  obtain ⟨v, heval, hcollapse⟩ := bind_eq_ok.mp houtcome
  have hnumeric := hphrase.isNumeric heval (Value.kind_of_collapse hcollapse)
  exact hspelled.forall_mem (fun c _ hblank => .inr hblank)
    fun l hl c hc => .inl ((hnumeric l hl).isExpressionChar c hc)

end Calc

theorem Amount.ofText_trim (symbols : List String) (text : String)
    : ofText symbols (trim text) = ofText symbols text := by
  have htrim : trim (trim text) = trim text := by
    unfold trim
    rw [String.toList_ofList, trimChars_trimChars]
  unfold ofText
  rw [htrim]

theorem splits_of_not_endsIn {units symbols : List String} {text rest : List Char}
    {unit : Option String} (h : ∀ s ∈ symbols, EndsIn text s → s = "")
    : Splits (units ++ symbols) text rest unit ↔ Splits (units ++ []) text rest unit := by
  rw [List.append_nil]
  constructor
  . intro hsplits
    refine ⟨hsplits.text_eq, ?_, ?_⟩
    . intro name hname
      obtain ⟨hmem, hne, harith⟩ := hsplits.fits name hname
      refine ⟨(List.mem_append.mp hmem).resolve_right ?_, hne, harith⟩
      intro hsymbol
      have htext := hsplits.text_eq
      rw [hname] at htext
      exact hne (h name hsymbol ⟨rest, htext, harith⟩)
    . intro name hname
      exact hsplits.longest name (List.mem_append_left _ hname)
  . intro hsplits
    refine ⟨hsplits.text_eq, ?_, ?_⟩
    . intro name hname
      obtain ⟨hmem, hne, harith⟩ := hsplits.fits name hname
      exact ⟨List.mem_append_left _ hmem, hne, harith⟩
    . intro name hname hends
      rcases List.mem_append.mp hname with hname | hname
      . exact hsplits.longest name hname hends
      . rw [h name hname hends]
        exact Nat.zero_le _

section Evaluated

variable {text : String} {n : Int} (h : Calc.evaluate text [] = .ok (.int n))
  (args : List String) (wallets : Directory)

include h

theorem Calc.not_mem_of_evaluate : '@' ∉ text.toList ∧ '$' ∉ text.toList := by
  have hchars := isExpressionChar_of_evaluate h
  constructor
  . intro hmem
    exact absurd (hchars _ hmem) (by decide)
  . intro hmem
    exact absurd (hchars _ hmem) (by decide)

theorem Amount.fill_of_evaluate : fill args wallets text = .ok text := by
  obtain ⟨hwallets, hargs⟩ := Calc.not_mem_of_evaluate h
  exact fill_of_not_mem hwallets hargs args wallets

theorem Amount.parse_of_evaluate {symbols : List String} {a : Amount}
    (hsymbols : ∀ s ∈ symbols, EndsIn (lower (trim text)).toList s → s = "")
    : parse symbols args wallets text = .ok a ↔ parse [] args wallets (trim text) = .ok a := by
  have heval : Calc.evaluate (trim text) [] = .ok (.int n) := by
    rw [trim, Calc.evaluate_trim, String.ofList_toList]
    exact h
  rw [parse_eq_ok, parse_eq_ok, fill_of_evaluate h, fill_of_evaluate heval]
  have htext : ofText symbols text = .ok a ↔ ofText [] (trim text) = .ok a := by
    rw [ofText_trim, ofText_eq_ok, ofText_eq_ok]
    simp only [splits_of_not_endsIn hsymbols]
  constructor
  . rintro ⟨_, heq, hok⟩
    cases heq
    exact ⟨_, rfl, htext.mp hok⟩
  . rintro ⟨_, heq, hok⟩
    cases heq
    exact ⟨_, rfl, htext.mpr hok⟩

theorem Calc.written_of_evaluate (hspaces : ∀ c ∈ (trim text).toList, isBlank c → c = ' ')
    : Written isExpressionChar (trim text).toList (trim text).toList none := by
  refine ⟨?_, fun _ hname => (by cases hname), 0, [], by simp, rfl⟩
  intro c hc
  have hmem : c ∈ text.toList := by
    rw [trim, String.toList_ofList] at hc
    exact (trimChars_sublist _).subset hc
  rcases Calc.isExpressionChar_of_evaluate h c hmem with hchar | hblank
  . exact hchar
  . rw [hspaces c hc hblank]
    decide

end Evaluated

theorem Written.eq_space {text e : List Char} {unit : Option String}
    (h : Written isExpressionChar text e unit) : ∀ c ∈ text, isBlank c → c = ' ' := by
  refine h.forall_mem ?_ (fun _ => rfl) ?_
  . intro c hc hblank
    rw [isExpressionChar, Bool.or_eq_true, beq_iff_eq] at hc
    rcases hc with hc | rfl
    . exact Calc.eq_space_of_isArithmetic hc hblank
    . exact absurd hblank (by decide)
  . intro c name hname hmem hblank
    have hnames : (commonDenominations.all fun name => name.toList.all fun c => !isBlank c)
        = true := by decide
    have hname' := List.all_eq_true.mp (List.all_eq_true.mp hnames name hname) _ hmem
    rw [isBlank_toLower, hblank] at hname'
    cases hname'

/--
An expression of an integer of 256 bits whose blanks are all spaces, but for those around it, stands
for the integer as an amount, if no token symbol is taken for its end. With another blank inside it
stands for no amount.
-/
theorem Amount.parse_expression (text : String)
    : (∀ ts, Calc.tokens text = .ok ts →
        (Calc.isArithmetic text.toList ↔
          (∀ b, Calc.Token.bool b ∉ ts) ∧ '!' ∉ text.toList ∧ 'P' ∉ text.toList ∧
            ∀ c ∈ text.toList, isBlank c → c = ' ')) ∧
      ∀ n : Int, Calc.evaluate text [] = .ok (.int n) → 0 ≤ n → n < 2 ^ 256 →
        ∀ (symbols args : List String) (wallets : Directory),
          (∀ s ∈ symbols, EndsIn (lower (trim text)).toList s → s = "") →
            ((∀ c ∈ (trim text).toList, isBlank c → c = ' ') →
              parse symbols args wallets text = .ok ⟨n.toNat, none⟩) ∧
            ((∃ c ∈ (trim text).toList, isBlank c ∧ c ≠ ' ') →
              ∃ fault, parse symbols args wallets text = .error fault ∧
                fault.kind = .resolution) := by
  refine ⟨fun ts => Calc.isArithmetic_of_tokens, ?_⟩
  intro n h hnonneg hlt symbols args wallets hsymbols
  have hparse {a : Amount} := Amount.parse_of_evaluate h args wallets (a := a) hsymbols
  constructor
  . intro hspaces
    have hwritten := Calc.written_of_evaluate h hspaces
    have hsmall : Calc.evaluate (lower (trim text)) [] = .ok (.int n) := by
      rw [← String.ofList_toList (s := text), ← Calc.evaluate_trim] at h
      rw [lower, lowerChars_of_ascii hwritten.ascii, trim, String.toList_ofList]
      exact Calc.evaluate_toLower h
    rw [hparse, hwritten.parse_eq_ok, String.ofList_toList]
    refine ⟨n, hsmall, ?_, ?_, rfl⟩
    . show n * 1 = _
      rw [Int.mul_one, Int.toNat_of_nonneg hnonneg]
    . dsimp only
      omega
  . rintro ⟨c, hc, hblank, hne⟩
    cases hok : parse symbols args wallets text with
    | error fault => exact ⟨fault, rfl, onlyFails_parse _ _ _ _ fault hok⟩
    | ok a =>
      obtain ⟨hwallets, hargs⟩ := Calc.not_mem_of_evaluate h
      have hplain : parse [] args wallets text = .ok a :=
        (Amount.parse_of_evaluate h args wallets (fun _ hs => by cases hs)).mpr (hparse.mp hok)
      obtain ⟨e, hwritten⟩ := exists_written_of_parse hwallets hargs hplain
      exact absurd (hwritten.eq_space c hc hblank) hne

def Calc.Tree.onePlusTwo : Tree :=
  .binary (.arithmetic .add) (.literal (.ofNat 1)) (.literal (.ofNat 2))

theorem Calc.evaluate_onePlusTwo {text : String}
    (h : Spaced (Tree.onePlusTwo.print 1) text.toList)
    : tokens text = .ok [.int 1, .op (.binary (.arithmetic .add)), .int 2] ∧
      evaluate text [] = .ok (.int 3) := by
  have hphrase : Phrase 1 Tree.onePlusTwo (Tree.onePlusTwo.print 1) :=
    Tree.onePlusTwo.phrase_print (by decide)
  have htokens : tokens text = .ok ((Tree.onePlusTwo.print 1).map Lexeme.token) := scan_spaced _ h
  refine ⟨htokens, ?_⟩
  rw [evaluate_of_tokens hphrase.ne_nil htokens, valueOf_phrase hphrase]
  rfl

theorem Amount.parse_tab
    : Calc.tokens "1\t+ 2" = .ok [.int 1, .op (.binary (.arithmetic .add)), .int 2] ∧
      Calc.isArithmetic "1\t+ 2".toList = false ∧
      Calc.evaluate "1\t+ 2" [] = .ok (.int 3) ∧
      (∃ fault, parse [] [] (Wallets.directory []) "1\t+ 2" = .error fault ∧
        fault.kind = .resolution) ∧
      parse [] [] (Wallets.directory []) "\t1 + 2" = .ok ⟨3, none⟩ ∧
      Calc.tokens "0x1P3" = .ok [.float ⟨8, 0⟩] ∧
      Calc.isArithmetic "0x1P3".toList = false := by
  have hblank {c : Char} {cs : List Char} (hc : isBlank c) : Calc.Ends (c :: cs) := by
    rintro d ⟨⟩
    exact hc
  have hend : Calc.Ends [] := by
    rintro d ⟨⟩
  have htab : Calc.Spaced (Calc.Tree.onePlusTwo.print 1) "1\t+ 2".toList :=
    .lexeme _ (hblank rfl) (.blank '\t' rfl (.lexeme (.op _) (hblank rfl)
      (.blank ' ' rfl (.lexeme _ hend .nil))))
  have hfront : Calc.Spaced (Calc.Tree.onePlusTwo.print 1) "\t1 + 2".toList :=
    .blank '\t' rfl (.lexeme _ (hblank rfl) (.blank ' ' rfl (.lexeme (.op _) (hblank rfl)
      (.blank ' ' rfl (.lexeme _ hend .nil)))))
  obtain ⟨htokens, heval⟩ := Calc.evaluate_onePlusTwo htab
  obtain ⟨_, heval'⟩ := Calc.evaluate_onePlusTwo hfront
  have hmark : Calc.tokens "0x1P3" = .ok [.float ⟨8, 0⟩] := by
    unfold Calc.tokens
    have hscan : Calc.scanNumeral "0x1P3".toList = .ok (.float ⟨8, 0⟩, []) := rfl
    rw [Calc.scan_numeral _ (by decide) hscan, Calc.scan_nil]
    rfl
  refine ⟨htokens, ?_, heval, ?_, ?_, hmark, ?_⟩
  . rw [Bool.eq_false_iff, Ne, (parse_expression "1\t+ 2").1 _ htokens]
    rintro ⟨_, _, _, hspaces⟩
    exact absurd (hspaces '\t' (by decide) rfl) (by decide)
  . exact ((parse_expression "1\t+ 2").2 3 heval (by decide) (by decide) [] [] _
      (fun _ hs => by cases hs)).2 ⟨'\t', by decide, rfl, by decide⟩
  . have hspaces : ((trim "\t1 + 2").toList.all fun c => !isBlank c || c == ' ') = true := by decide
    apply ((parse_expression "\t1 + 2").2 3 heval' (by decide) (by decide) [] [] _
      (fun _ hs => by cases hs)).1
    intro c hc hblank
    have hc' := List.all_eq_true.mp hspaces c hc
    rw [hblank] at hc'
    exact beq_iff_eq.mp hc'
  . rw [Bool.eq_false_iff, Ne, (parse_expression "0x1P3").1 _ hmark]
    rintro ⟨_, _, hlarge, _⟩
    exact absurd (by decide) hlarge

end Runbook
