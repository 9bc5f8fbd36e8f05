import Runbook.Proofs.Amount.Unit
import Runbook.Proofs.Param.Value
import Runbook.Wallet.Basic

/-!
This module contains when a text stands for an amount, and what the token symbols that may follow it
have to do with that.
-/

namespace Runbook

open Text

def unitFactor : Option String → Int
  | some "gwei" => 10 ^ 9
  | some "ether" => 10 ^ 18
  | _ => 1

theorem denominate_eq (value : Int) (unit : String)
    : denominate value unit = value * unitFactor (some unit) := by
  unfold denominate unitFactor
  split
  . rfl
  . rfl
  . next hgwei hether =>
    split
    . next heq => exact absurd (Option.some.inj heq) hgwei
    . next heq => exact absurd (Option.some.inj heq) hether
    . exact (Int.mul_one value).symm

theorem Amount.ofText_eq (symbols : List String) (text : String)
    : ofText symbols text =
      let split := splitUnit (lower (trim text)).toList (unitCandidates symbols)
      if !Calc.isArithmetic (trimChars split.1) then
        fail .resolution
          ("'" ++ String.ofList (trimChars split.1) ++ "' is not an arithmetic expression")
      else do
        let value ← Result.changeKind .resolution
          (Calc.evaluateInt (String.ofList (trimChars split.1)))
        return ⟨← toAmount (value * unitFactor split.2), split.2⟩ := by
  unfold ofText
  dsimp only
  generalize splitUnit (lower (trim text)).toList (unitCandidates symbols) = split
  obtain ⟨rest, unit⟩ := split
  cases unit with
  | none => simp only [unitFactor, Int.mul_one]
  | some name => simp only [denominate_eq]

theorem Amount.ofText_eq_ok {symbols : List String} {text : String} {a : Amount}
    : ofText symbols text = .ok a ↔
      ∃ rest n,
        Splits (commonDenominations ++ symbols) (lower (trim text)).toList rest a.denomination ∧
        Calc.isArithmetic (trimChars rest) ∧
        Calc.evaluate (String.ofList rest) [] = .ok (.int n) ∧
        n * unitFactor a.denomination = a.value ∧
        a.value < 2 ^ 256 := by
  rw [ofText_eq]
  dsimp only
  have hsplits := splitUnit_splits symbols (lower (trim text)).toList
  generalize splitUnit (lower (trim text)).toList (unitCandidates symbols) = split at hsplits ⊢
  obtain ⟨rest, unit⟩ := split
  dsimp only at hsplits ⊢
  constructor
  . intro h
    split at h
    . cases h
    . next harith =>
      obtain ⟨n, hn, h⟩ := bind_eq_ok.mp h
      obtain ⟨m, hm, h⟩ := bind_eq_ok.mp h
      cases h
      obtain ⟨hfactor, hlt⟩ := toAmount_eq_ok.mp hm
      have heval := Calc.evaluateInt_eq_ok.mp (Result.eq_ok_of_changeKind hn)
      rw [Calc.evaluate_trim] at heval
      exact ⟨rest, n, hsplits, by simpa using harith, heval, hfactor, hlt⟩
  . rintro ⟨rest', n, hsplits', harith, heval, hfactor, hlt⟩
    obtain ⟨rfl, hunit⟩ := hsplits'.unique hsplits
    rw [← Calc.evaluate_trim, ← Calc.evaluateInt_eq_ok] at heval
    have hamount : toAmount (n * unitFactor unit) = .ok a.value := by
      rw [toAmount_eq_ok, ← hunit]
      exact ⟨hfactor, hlt⟩
    rw [if_neg (by simpa using harith), heval]
    refine bind_eq_ok.mpr ⟨n, rfl, bind_eq_ok.mpr ⟨a.value, hamount, ?_⟩⟩
    rw [← hunit]
    rfl

theorem onlyFails_ofText (symbols : List String) (text : String)
    : Result.OnlyFails .resolution (Amount.ofText symbols text) := by
  rw [Amount.ofText_eq]
  dsimp only
  split
  . exact Result.onlyFails_fail _
  . apply Result.OnlyFails.bind (Result.onlyFails_changeKind _)
    intro value
    apply Result.OnlyFails.bind (onlyFails_toAmount _)
    intro n
    exact Result.onlyFails_ok _

def Amount.fill (args : List String) (wallets : Directory) (text : String) : Result String := do
  let text ← substituteBalances wallets text
  match substituteArgs text args with
  | .error index =>
    fail .resolution ("insufficient arguments: $" ++ toString index ++ " referenced but "
      ++ toString args.length ++ " supplied")
  | .ok text => pure text

theorem Amount.parse_eq (symbols args : List String) (wallets : Directory) (text : String)
    : parse symbols args wallets text
        =
      Result.attach ("unable to parse value '" ++ text ++ "'")
        (fill args wallets text >>= ofText symbols) := by
  unfold parse fill
  rw [bind_assoc]
  congr 2
  funext balanced
  cases substituteArgs balanced args <;> rfl

theorem Amount.parse_eq_ok {symbols args : List String} {wallets : Directory} {text : String}
    {a : Amount}
    : parse symbols args wallets text = .ok a ↔
      ∃ filled, fill args wallets text = .ok filled ∧ ofText symbols filled = .ok a := by
  rw [parse_eq, Result.attach_eq_ok, bind_eq_ok]

theorem onlyFails_walletBalance (wallets : Directory) (wallet field : String)
    : Result.OnlyFails .resolution (walletBalance wallets wallet field) := by
  unfold walletBalance
  split
  . exact Result.onlyFails_fail _
  . split
    . exact Result.onlyFails_fail _
    . split
      . exact Result.onlyFails_ok _
      . exact Result.onlyFails_fail _

theorem onlyFails_fill (args : List String) (wallets : Directory) (text : String)
    : Result.OnlyFails .resolution (Amount.fill args wallets text) := by
  unfold Amount.fill substituteBalances
  rw [bind_assoc]
  apply Result.OnlyFails.bind
  . apply Result.OnlyFails.mapM
    intro piece
    split
    . exact Result.onlyFails_ok _
    . exact (onlyFails_walletBalance _ _ _).map _
    . exact Result.onlyFails_ok _
  . intro pieces
    rw [pure_bind]
    split
    . exact Result.onlyFails_fail _
    . exact Result.onlyFails_ok _

theorem onlyFails_parse (symbols args : List String) (wallets : Directory) (text : String)
    : Result.OnlyFails .resolution (Amount.parse symbols args wallets text) := by
  rw [Amount.parse_eq]
  apply Result.OnlyFails.attach
  apply Result.OnlyFails.bind (onlyFails_fill args wallets text)
  exact onlyFails_ofText symbols

theorem ValuePiece.ofChars_eq_map {cs : List Char} (h : '@' ∉ cs) : ofChars cs = cs.map char := by
  induction cs with
  | nil => rw [ofChars]; rfl
  | cons c cs ih =>
    rw [List.mem_cons, not_or] at h
    rw [ofChars, ih h.2]
    . rfl
    . intro d rest hc _
      exact h.1 hc.symm

theorem Piece.ofChars_eq_map {cs : List Char} (h : '$' ∉ cs) : ofChars cs = cs.map char := by
  induction cs with
  | nil => rw [ofChars]; rfl
  | cons c cs ih =>
    rw [List.mem_cons, not_or] at h
    rw [ofChars, ih h.2]
    . rfl
    . intro d rest hc _
      exact h.1 hc.symm

theorem mapM_chars {ε π : Type} {f : π → Except ε (List Char)} {piece : Char → π}
    (h : ∀ c, f (piece c) = .ok [c]) (cs : List Char)
    : (cs.map piece).mapM f = .ok (cs.map fun c => [c]) := by
  induction cs with
  | nil => rfl
  | cons c cs ih =>
    rw [List.map_cons, List.mapM_cons, h, ih]
    rfl

theorem ofList_flatten_chars (text : String)
    : String.ofList (text.toList.map fun c => [c]).flatten = text := by
  rw [← List.flatMap_def, List.flatMap_singleton', String.ofList_toList]

theorem substituteBalances_of_not_mem {text : String} (h : '@' ∉ text.toList) (wallets : Directory)
    : substituteBalances wallets text = .ok text := by
  unfold substituteBalances
  rw [ValuePiece.ofChars_eq_map h]
  refine bind_eq_ok.mpr ⟨_, mapM_chars ?_ _, ?_⟩
  . intro c
    rfl
  . exact congrArg Except.ok (ofList_flatten_chars text)

theorem substituteArgs_of_not_mem {text : String} (h : '$' ∉ text.toList) (args : List String)
    : substituteArgs text args = .ok text := by
  unfold substituteArgs
  rw [Piece.ofChars_eq_map h]
  refine map_eq_ok.mpr ⟨_, mapM_chars ?_ _, ofList_flatten_chars text⟩
  intro c
  rfl

theorem Amount.fill_of_not_mem {text : String} (hwallets : '@' ∉ text.toList)
    (hargs : '$' ∉ text.toList) (args : List String) (wallets : Directory)
    : fill args wallets text = .ok text := by
  refine bind_eq_ok.mpr ⟨text, substituteBalances_of_not_mem hwallets wallets, ?_⟩
  rw [substituteArgs_of_not_mem hargs]
  rfl

/--
A text that stands for an amount without token symbols stands for the same one with them exactly if
it ends in none that is longer than the amount's unit and has only characters of an expression in
front.
-/
theorem Amount.parse_symbols_iff {args : List String} {wallets : Directory} {text : String}
    {a : Amount} (h : parse [] args wallets text = .ok a)
    : ∃ filled, fill args wallets text = .ok filled ∧
        ∀ symbols, parse symbols args wallets text = .ok a ↔
          ∀ s ∈ symbols, EndsIn (lower (trim filled)).toList s →
            s.length ≤ (a.denomination.getD "").length := by
  obtain ⟨filled, hfill, htext⟩ := parse_eq_ok.mp h
  refine ⟨filled, hfill, ?_⟩
  intro symbols
  rw [parse_eq_ok, hfill]
  obtain ⟨rest, n, hsplits, harith, heval, hfactor, hlt⟩ := ofText_eq_ok.mp htext
  rw [List.append_nil] at hsplits
  constructor
  . rintro ⟨_, heq, htext'⟩ s hs hends
    cases heq
    obtain ⟨_, _, hsplits', _⟩ := ofText_eq_ok.mp htext'
    exact hsplits'.longest s (List.mem_append_right _ hs) hends
  . intro hlongest
    refine ⟨filled, rfl, ofText_eq_ok.mpr ⟨rest, n, ?_, harith, heval, hfactor, hlt⟩⟩
    refine ⟨hsplits.text_eq, ?_, ?_⟩
    . intro name hname
      obtain ⟨hmem, hne, harith'⟩ := hsplits.fits name hname
      exact ⟨List.mem_append_left _ hmem, hne, harith'⟩
    . intro s hs hends
      rcases List.mem_append.mp hs with hs | hs
      . exact hsplits.longest s hs hends
      . exact hlongest s hs hends

theorem Amount.parse_gweiBesideTether
    : parse [] [] (Wallets.directory []) "5 gwei" = .ok ⟨5 * 10 ^ 9, some "gwei"⟩ ∧
      parse ["tether"] [] (Wallets.directory []) "5 gwei" = .ok ⟨5 * 10 ^ 9, some "gwei"⟩ := by
  have hfill : fill [] (Wallets.directory []) "5 gwei" = .ok "5 gwei" :=
    fill_of_not_mem (by decide) (by decide) _ _
  have hsplits : Splits (commonDenominations ++ []) "5 gwei".toList "5 ".toList (some "gwei") :=
    .of_suffix (by decide) (by rintro _ ⟨⟩; decide) (by decide)
  have hfive : Calc.evaluate (String.ofList "5 ".toList) [] = .ok (.int 5) := by
    rw [← Calc.evaluate_trim, show trimChars "5 ".toList = ['5'] by decide]
    exact Calc.evaluate_numeral (by decide) rfl (Calc.readOperand_int 5 []) rfl
  have hparse : parse [] [] (Wallets.directory []) "5 gwei" = .ok ⟨5 * 10 ^ 9, some "gwei"⟩ :=
    parse_eq_ok.mpr ⟨_, hfill, ofText_eq_ok.mpr
      ⟨"5 ".toList, 5, hsplits, by decide, hfive, by decide, by decide⟩⟩
  obtain ⟨filled, hfilled, hsymbols⟩ := parse_symbols_iff hparse
  cases hfill.symm.trans hfilled
  refine ⟨hparse, (hsymbols ["tether"]).mpr ?_⟩
  rintro s hs ⟨rest, htext, _⟩
  rw [List.mem_singleton.mp hs] at htext
  exact absurd ⟨rest, htext.symm⟩ (by decide : ¬ "tether".toList <:+ "5 gwei".toList)

theorem Amount.parse_symbolInNumber
    : parse [] [] (Wallets.directory []) "0x5e" = .ok ⟨94, none⟩ ∧
      lower "e" = "e" ∧
      parse ["e"] [] (Wallets.directory []) "0x5e" = .ok ⟨5, some "e"⟩ := by
  have hfill : fill [] (Wallets.directory []) "0x5e" = .ok "0x5e" :=
    fill_of_not_mem (by decide) (by decide) _ _
  have hsplits : Splits (commonDenominations ++ []) "0x5e".toList "0x5e".toList none :=
    .of_suffix (by decide) (by rintro _ ⟨⟩) (by decide)
  have hsplits' : Splits (commonDenominations ++ ["e"]) "0x5e".toList "0x5".toList (some "e") :=
    .of_suffix (by decide) (by rintro _ ⟨⟩; decide) (by decide)
  have hwhole : Calc.evaluate (String.ofList "0x5e".toList) [] = .ok (.int 94) :=
    Calc.evaluate_numeral (by decide) rfl (Calc.readOperand_int 94 []) rfl
  have hfront : Calc.evaluate (String.ofList "0x5".toList) [] = .ok (.int 5) :=
    Calc.evaluate_numeral (by decide) rfl (Calc.readOperand_int 5 []) rfl
  refine ⟨?_, by decide, ?_⟩
  . exact parse_eq_ok.mpr ⟨_, hfill, ofText_eq_ok.mpr
      ⟨"0x5e".toList, 94, hsplits, by decide, hwhole, by decide, by decide⟩⟩
  . exact parse_eq_ok.mpr ⟨_, hfill, ofText_eq_ok.mpr
      ⟨"0x5".toList, 5, hsplits', by decide, hfront, by decide, by decide⟩⟩

end Runbook
