import Runbook.Proofs.Engine.Refreshed
import Runbook.Proofs.Engine.Symbols
import Runbook.Proofs.Plan.Silent

/-!
This module contains which token an amount's unit stands for: the unit is a symbol in the small
letters of Unicode, and it is looked up as far as the small letters of ASCII go.
-/

namespace Runbook

namespace Catalogue

variable {c : Catalogue}

theorem exists_symbol_of_mem_symbols {unit : String} (h : unit ∈ c.symbols)
    : ∃ id symbol, (c.instance? id).bind Instance.symbol = some symbol ∧
        unit = Text.lower symbol := by
  obtain ⟨symbol, hsymbol, rfl⟩ := List.mem_map.mp h
  obtain ⟨i, hi, heq⟩ := List.mem_filterMap.mp hsymbol
  obtain ⟨id, hid⟩ := List.mem_iff_getElem?.mp hi
  exact ⟨id, symbol, Option.bind_eq_some_iff.mpr ⟨i, hid, heq⟩, rfl⟩

theorem isSome_findSymbol? {text : String}
    : (c.findSymbol? text).isSome ↔
      ∃ id symbol, (c.instance? id).bind Instance.symbol = some symbol ∧
        Text.eqIgnoringAsciiCase text symbol = true := by
  constructor
  . intro h
    obtain ⟨id, hid⟩ := Option.isSome_iff_exists.mp h
    obtain ⟨symbol, hsymbol, heq⟩ := Plan.symbol_of_findSymbol? hid
    exact ⟨id, symbol, hsymbol, heq⟩
  . rintro ⟨id, symbol, hsymbol, heq⟩
    obtain ⟨i, hi, hsome⟩ := Option.bind_eq_some_iff.mp hsymbol
    unfold findSymbol?
    rw [List.findIdx?_isSome, List.any_eq_true]
    exact ⟨i, List.mem_of_getElem? hi, by rw [hsome]; exact heq⟩

end Catalogue

theorem Amount.mem_symbols_of_isToken {symbols args : List String} {wallets : Directory}
    {text : String} {a : Amount} (h : parse symbols args wallets text = .ok a)
    (htoken : a.isToken = true) : ∃ unit ∈ symbols, a.denomination = some unit := by
  obtain ⟨filled, _, htext⟩ := parse_eq_ok.mp h
  obtain ⟨rest, n, hsplits, _⟩ := ofText_eq_ok.mp htext
  obtain ⟨unit, hunit⟩ := exists_of_isToken htoken
  have hcommon : ¬ unit ∈ commonDenominations := by
    unfold isToken isCommonDenomination at htoken
    rw [hunit] at htoken
    simpa using htoken
  refine ⟨unit, ?_, hunit⟩
  cases List.mem_append.mp (hsplits.fits unit hunit).1 with
  | inl hmem => exact absurd hmem hcommon
  | inr hmem => exact hmem

namespace Session

variable {ω : Type} {host : Host ω} {σ σ' : Session ω}

/--
All known symbols were told by their instances, and are kept in capital letters.
-/
def Heard (σ : Session ω) : Prop :=
  ∀ id symbol, σ.symbol? id = some symbol → ∃ told, symbol = Text.upper told

theorem heard_after {start : List Exchange} {name : String} {args : List String} {e : Event}
    (hσ : σ.Heard) (he : Caused start name args σ e) : (σ.after host e).Heard := by
  intro id symbol hsymbol
  by_cases hspares : Sparing id σ e
  . exact hσ id symbol ((after_symbol? hspares).symm.trans hsymbol)
  . cases e with
    | symbol id' symbol' =>
      obtain ⟨told, htold⟩ := he
      rw [symbol?_symbol, if_pos (not_not.mp hspares)] at hsymbol
      obtain ⟨_, _, heq⟩ := Option.bind_eq_some_iff.mp hsymbol
      rw [htold] at heq
      exact ⟨told, (Option.some.inj heq).symm⟩
    | _ => exact (hspares trivial).elim

theorem Runs.heard {start : List Exchange} {name : String} {args : List String}
    (h : Runs host (Caused start name args) σ σ') (hσ : σ.Heard) : σ'.Heard := by
  induction h with
  | nil => exact hσ
  | cons e he _ ih => exact ih (heard_after hσ he)

theorem Course.heard (h : Course host Caused σ σ') (hσ : σ.Heard) : σ'.Heard := by
  induction h with
  | refl => exact hσ
  | command _ _ hruns _ ih => exact ih (hruns.heard hσ)
  | step _ hruns _ ih => exact ih (hruns.heard hσ)
  | quiet _ _ _ ih => exact ih hσ

theorem Reachable.heard (h : σ.Reachable) : σ.Heard := by
  induction h with
  | start h trace =>
    intro id symbol hsymbol
    obtain ⟨i, hi, heq⟩ := Option.bind_eq_some_iff.mp hsymbol
    rw [Plan.silent_of_ofDocument h i (List.mem_of_getElem? hi)] at heq
    cases heq
  | command _ host name args ih => exact (caused_runCommand host [] name args _).heard ih
  | target h host observe name args ih => exact (course_runTarget host observe name args h.targetsFit).heard ih
  | outside _ _ ih => exact ih

theorem Parses.heard {c : WriteCommand} {p : Plan} (h : Parses host c σ p) (hσ : σ.Heard)
    : ∀ id symbol, (p.catalogue.instance? id).bind Instance.symbol = some symbol →
        ∃ told, symbol = Text.upper told := by
  obtain ⟨sender, price, σ₁, hgather, rfl⟩ := h
  have hruns : Runs host (Caused [] "" []) σ σ₁ :=
    caused_discoverSymbols.trans (((follows_gather c).runs hgather).mono caused_of_arranging)
  exact hruns.heard hσ

theorem Parses.fails {c : WriteCommand} {args : List String} {p : Plan} {amount : Option Amount}
    {e : Fault} (h : Parses host c σ p) (hamount : amountOf c args p = .ok amount)
    (hintent : p.intent c args amount = .error e)
    : (runWrite host c args σ).1.result = .error e := by
  obtain ⟨sender, price, σ₁, hgather, rfl⟩ := h
  have hreads : (reads (amountOf c args)).run σ₁ = (.ok amount, σ₁) := by
    rw [← hamount]
    rfl
  have hreads' : (reads (·.intent c args amount)).run σ₁ = (.error e, σ₁) := by
    rw [← hintent]
    rfl
  have hrun : (submitWrite host c args).run σ = (.error e, σ₁) := by
    apply submitWrite_of_error
    rw [prepare_eq, Action.run_bind_ok (Action.run_perform _ σ), Action.run_bind_ok hgather]
    unfold compose
    rw [Action.run_bind_ok hreads]
    exact Action.run_bind_error hreads'
  rw [runWrite_of_error hrun]

end Session

theorem Plan.intent_of_unknown {p : Plan} {c : WriteCommand} {args : List String} {amount : Amount}
    {unit : String} {recipient : Option Address} (htoken : amount.isToken = true)
    (hunit : amount.denomination = some unit) (hnone : p.catalogue.findSymbol? unit = none)
    (hrecipient : p.recipientOf c args = .ok recipient)
    : p.intent c args (some amount)
        = .error (.ofNote .resolution ("referenced token contract not found: " ++ unit)) := by
  have htokens : (some amount).filter Amount.isToken = some amount := by
    rw [Option.filter_some, if_pos htoken]
  unfold intent
  rw [hrecipient, htokens]
  show p.tokenIntent amount recipient = _
  unfold tokenIntent
  rw [hunit]
  dsimp only [Option.getD_some]
  rw [hnone]
  rfl

namespace Session

variable {ω : Type} {host : Host ω} {σ σ' : Session ω}

/--
An amount that counts tokens is written in the symbol of an instance: the one that it has told, in
small letters behind capital ones. The token is found just if the small letters of ASCII make this
unit of some symbol, so always if they are all that there are. Else the write fails.
-/
theorem parses_denominated {c : WriteCommand} {p : Plan} (hσ : σ.Reachable)
    (hparses : Parses host c σ p) {args : List String} {wallets : Directory} {text : String}
    {amount : Amount} (hamount : Amount.parse p.catalogue.symbols args wallets text = .ok amount)
    (htoken : amount.isToken = true)
    : ∃ id told unit,
        (p.catalogue.instance? id).bind Instance.symbol = some (Text.upper told) ∧
        unit = Text.lower (Text.upper told) ∧
        amount.denomination = some unit ∧
        ((p.catalogue.findSymbol? unit).isSome ↔ ∃ id' told',
          (p.catalogue.instance? id').bind Instance.symbol = some (Text.upper told') ∧
            (Text.upper told').toList.map Char.toLower = unit.toList) ∧
        ((∀ ch ∈ (Text.upper told).toList, ch.toNat < 128) →
          (p.catalogue.findSymbol? unit).isSome) ∧
        (p.catalogue.findSymbol? unit = none → ∀ args recipient,
          amountOf c args p = .ok (some amount) → p.recipientOf c args = .ok recipient →
            (runWrite host c args σ).1.result
              =
            .error (.ofNote .resolution ("referenced token contract not found: " ++ unit))) := by
  have hheard := hparses.heard hσ.heard
  obtain ⟨unit, hmem, hunit⟩ := Amount.mem_symbols_of_isToken hamount htoken
  obtain ⟨id, symbol, hsymbol, rfl⟩ := Catalogue.exists_symbol_of_mem_symbols hmem
  obtain ⟨told, rfl⟩ := hheard id symbol hsymbol
  refine ⟨id, told, _, hsymbol, rfl, hunit, ?_, ?_, ?_⟩
  . rw [Catalogue.isSome_findSymbol?]
    constructor
    . rintro ⟨id', symbol', hsymbol', heq⟩
      obtain ⟨told', rfl⟩ := hheard id' symbol' hsymbol'
      exact ⟨id', told', hsymbol', (Text.eqIgnoringAsciiCase_lower _ _).mp heq⟩
    . rintro ⟨id', told', hsymbol', heq⟩
      exact ⟨id', _, hsymbol', (Text.eqIgnoringAsciiCase_lower _ _).mpr heq⟩
  . intro hascii
    exact Catalogue.isSome_findSymbol?.mpr
      ⟨id, _, hsymbol, Text.eqIgnoringAsciiCase_lower_of_ascii hascii⟩
  . intro hnone args recipient hvalue hrecipient
    exact hparses.fails hvalue (Plan.intent_of_unknown htoken hunit hnone hrecipient)

section Acute

def acuteViews (_ : ViewCall) : Result Bytes :=
  .ok (Abi.AbiValue.standard [.string "é"])

def acuteReceipt : Receipt :=
  ⟨true, some 1, none⟩

def acuteHost : Host Unit :=
  mintingHost acuteViews (some .settled) (some acuteReceipt)

def acuteCommand : WriteCommand :=
  { mintCommand with
      name := "pay"
      method := none
      target := none
      value := some "5 é"
      recipient := some (.address payee) }

theorem balancesOf_acute : balancesOf acuteCommand = ["alice"] := by
  unfold balancesOf balanceReferences walletTokens
  dsimp only [acuteCommand, mintCommand, Option.map_some, Option.getD_some]
  rw [ValuePiece.ofChars_eq_map (by decide)]
  rfl

theorem exists_parses_acute {σ : Session Unit} {a : Address}
    (h : σ.plan.wallets.addressOf "alice" = .ok a)
    : ∃ p, Parses acuteHost acuteCommand σ p := by
  obtain ⟨σ₁, sender, price, hgather⟩ : ∃ σ₁, Reaches acuteHost acuteCommand σ σ₁ := by
    refine exists_reaches ?_ fun _ _ => ⟨(0 : Nat), rfl⟩
    rw [balancesOf_acute]
    exact List.forall_mem_singleton.mpr ⟨a, h⟩
  exact ⟨σ₁.plan, sender, price, σ₁, hgather, rfl⟩

theorem parse_acute (wallets : Directory)
    : Amount.parse ["é"] [] wallets "5 é" = .ok ⟨5, some "é"⟩ := by
  have hsplits : Splits (commonDenominations ++ ["é"]) "5 é".toList "5 ".toList (some "é") :=
    .of_suffix (by decide) (by rintro _ ⟨⟩; decide) (by decide)
  have hfive : Calc.evaluate (String.ofList "5 ".toList) [] = .ok (.int 5) := by
    rw [← Calc.evaluate_trim, show Text.trimChars "5 ".toList = ['5'] by decide]
    exact Calc.evaluate_numeral (by decide) rfl (Calc.readOperand_int 5 []) rfl
  have hlowered : (Text.lower (Text.trim "5 é")).toList = "5 é".toList := by decide
  refine Amount.parse_eq_ok.mpr
    ⟨_, Amount.fill_of_not_mem (by decide) (by decide) [] wallets, Amount.ofText_eq_ok.mpr
      ⟨"5 ".toList, 5, ?_, by decide, hfive, by decide, by decide⟩⟩
  rw [hlowered]
  exact hsplits

theorem acute_unfound
    : ∃ (σ : Session Unit) (p : Plan),
        σ.Reachable ∧
        Parses acuteHost acuteCommand σ p ∧
        (p.catalogue.instance? 0).bind Instance.symbol = some "É" ∧
        p.catalogue.symbols = ["é"] ∧
        Amount.parse p.catalogue.symbols [] p.wallets.directory "5 é" = .ok ⟨5, some "é"⟩ ∧
        p.catalogue.findSymbol? "é" = none ∧
        (runWrite acuteHost acuteCommand [] σ).1.result
          = .error (.ofNote .resolution "referenced token contract not found: é") := by
  obtain ⟨t, hchecked⟩ :=
    @exists_launchWith (launchBuild.interface.functions ++ [symbolFunction]) rfl
  obtain ⟨signed, hsign⟩ := Option.isSome_iff_exists.mp isSome_sign_mint
  obtain ⟨o, σ, new, hvisit, hnew, hbroadcasts, _, hlike, _⟩ :=
    @visit_mint acuteViews acuteReceipt rfl (launchBuild.interface.functions ++ [symbolFunction])
      signed hsign (fun _ w => w) t
  let σ₀ : Session Unit := { plan := tokenPlan, trace := t }
  have hσ : σ.Reachable := by
    have hstart : Reachable σ₀ := .start hchecked t
    have hlaunched : ((runTarget acuteHost (fun _ w => w) "launch" []).run σ₀).2 = σ :=
      runTarget_launch hvisit
    rw [← hlaunched]
    exact hstart.target acuteHost (fun _ w => w) "launch" []
  have hrecipient : signed.transaction.recipient = none := by
    rw [(eq_of_sign? hsign).1]
    rfl
  -- The token is asked for its symbol once its contract is accepted, and is not asked again.
  obtain ⟨σ₁, hfresh, hprobed, hsymbol⟩ :=
    @symbol?_visit _ acuteHost σ₀ σ 0 mintStep mintCommand [] new signed [1] (fun _ w => w) "launch"
      0 o none rfl rfl rfl rfl hvisit hnew (by rw [hbroadcasts]; exact List.mem_cons_self ..)
      hrecipient
  have htold : told acuteHost 0 σ₁ = some "é" :=
    told_eq_some (hfresh.spares.like.buildOf rfl) rfl rfl hfresh.address (by decide) (by decide +kernel)
      (fun _ _ _ => rfl)
  rw [htold] at hsymbol
  -- The symbol is kept in capital letters. The look-up of a unit passes over the case of ASCII only.
  have hupper : Text.upper "é" = "É" := by decide
  obtain ⟨p, hparses⟩ := exists_parses_acute (hlike.wallets "alice")
  have hknown : (p.catalogue.instance? 0).bind Instance.symbol = some "É" := by
    rw [hparses.spares hprobed, hsymbol, ← hupper]
  have hlikep := hlike.trans hparses.like
  have hsymbols : p.catalogue.symbols = ["é"] := by
    rw [symbols_of_token hlikep, hknown]
    decide
  have hparse : Amount.parse p.catalogue.symbols [] p.wallets.directory "5 é"
      = .ok ⟨5, some "é"⟩ := by
    rw [hsymbols]
    exact parse_acute _
  obtain ⟨id, told', unit, _, _, hunit, hfound, _, hfails⟩ :=
    parses_denominated hσ hparses hparse (by decide)
  cases hunit
  have hnone : p.catalogue.findSymbol? "é" = none := by
    rw [← Option.not_isSome_iff_eq_none, hfound]
    rintro ⟨id', told'', hsymbol', hsame⟩
    cases id' with
    | zero =>
      rw [← Option.some.inj (hknown.symm.trans hsymbol')] at hsame
      revert hsame
      decide
    | succ id' =>
      obtain ⟨i, hi⟩ := exists_instance_of_token hlikep
      unfold Catalogue.instance? at hsymbol'
      rw [hi] at hsymbol'
      cases hsymbol'
  refine ⟨σ, p, hσ, hparses, hknown, hsymbols, hparse, hnone, ?_⟩
  refine hfails hnone [] (some payee) ?_ rfl
  unfold amountOf
  dsimp only [acuteCommand]
  rw [hparse]
  rfl

end Acute

end Session

end Runbook
