import Runbook.Proofs.Param.Resolved
import Runbook.Proofs.Plan.Names

/-!
This module contains that an argument means what the same text means where it is written in the
playbook: a template whose tokens are replaced has the value that the text has which this gives.
-/

namespace Runbook

def ParamDecl.value (scope₀ scope : Scope) (d : ParamDecl) : Result Value := do
  (Slot.mk d (← d.resolve scope₀)).finalize scope

def Scope.Knows (scope₀ scope : Scope) : Prop :=
  ∀ wallet field v, scope.wallets.field? wallet field = some v →
    scope₀.wallets.contains wallet = true

theorem Scope.knows_of_names {scope₀ scope : Scope} {ws₀ ws : Wallets}
    (hwallets₀ : scope₀.wallets = ws₀.directory) (hwallets : scope.wallets = ws.directory)
    (hnames : Entries.names ws₀ = Entries.names ws) : scope₀.Knows scope := by
  intro wallet field v hv
  rw [hwallets] at hv
  obtain ⟨w, hw, _⟩ := Option.bind_eq_some_iff.mp hv
  have hmem := Entries.mem_names_of_find? hw
  rw [← hnames] at hmem
  rw [hwallets₀]
  exact Entries.mem_names_iff.mp hmem

section Values

variable {scope scope₀ : Scope} {type : ParamType} {text template : String} {v : Value}

theorem value_of_resolveWalletRef {ref : WalletRef} {r : Resolution}
    (href : WalletRef.parse text = .ok ref) (hresolve : resolveWalletRef scope₀ text = .ok r)
    : r.value scope = ref.value scope.wallets scope.sender := by
  obtain ⟨ref', href', hresolve⟩ := bind_eq_ok.mp hresolve
  cases href.symm.trans href'
  cases ref with
  | sender =>
    cases hresolve
    rfl
  | field wallet name =>
    dsimp only at hresolve
    split at hresolve
    . cases hresolve
      rfl
    . cases hresolve

theorem exists_resolveWalletRef {ref : WalletRef} (hknows : scope₀.Knows scope)
    (href : WalletRef.parse text = .ok ref)
    (hv : ref.value scope.wallets scope.sender = .ok v)
    : ∃ r, resolveWalletRef scope₀ text = .ok r := by
  unfold resolveWalletRef
  rw [href]
  cases ref with
  | sender => exact ⟨_, rfl⟩
  | field wallet name =>
    unfold WalletRef.value at hv
    dsimp only at hv
    split at hv
    . next v' hfield =>
      refine ⟨.deferred (.wallet (.field wallet name)) .walletState, ?_⟩
      exact if_pos (hknows wallet name v' hfield)
    . cases hv

theorem value_template_eq_ok (htext : substituteArgs template scope.args = .ok text)
    : (Param.template template type).value scope = .ok v ↔ scope.Reads type text v := by
  constructor
  . intro h
    obtain ⟨text', htext', hreads⟩ := reads_of_template h
    cases htext.symm.trans htext'
    exact hreads
  . intro hreads
    unfold Param.value
    dsimp only
    rw [htext]
    rcases hreads with ⟨htype, hwallet, ref, href, hv⟩ | ⟨hother, hv⟩
    . dsimp only
      rw [if_pos ⟨htype, hwallet⟩, href]
      exact hv
    . dsimp only
      rw [if_neg hother]
      exact hv

theorem value_resolveTemplate_eq_ok (htext : substituteArgs template scope.args = .ok text)
    : (resolveTemplate scope type template).value scope = .ok v ↔ scope.Reads type text v := by
  constructor
  . intro h
    obtain ⟨text', htext', hreads⟩ := reads_of_resolveTemplate rfl h
    cases htext.symm.trans htext'
    exact hreads
  . intro hreads
    unfold resolveTemplate
    rw [htext]
    dsimp only
    split
    . next r hr =>
      rcases hreads with ⟨htype, hwallet, ref, href, hv⟩ | ⟨hother, hv⟩
      . rw [if_pos ⟨htype, hwallet⟩] at hr
        rw [value_of_resolveWalletRef href hr]
        exact hv
      . rw [if_neg hother, hv] at hr
        cases hr
        rfl
    . exact (value_template_eq_ok htext).mpr hreads

theorem not_reads_of_mismatch (hknows : scope.Knows scope) {p : Param}
    (htext : substituteArgs template scope.args = .ok text)
    (h : resolveTemplate scope type template = .deferred p .argumentMismatch)
    : ¬ scope.Reads type text v := by
  intro hreads
  unfold resolveTemplate at h
  rw [htext] at h
  dsimp only at h
  rcases hreads with ⟨htype, hwallet, ref, href, hv⟩ | ⟨hother, hv⟩
  . obtain ⟨r, hr⟩ := exists_resolveWalletRef hknows href hv
    rw [if_pos ⟨htype, hwallet⟩, hr] at h
    dsimp only at h
    obtain ⟨ref', _, hresolve⟩ := bind_eq_ok.mp hr
    split at hresolve
    . cases hresolve
      cases h
    . split at hresolve
      . cases hresolve
        cases h
      . cases hresolve
  . rw [if_neg hother, hv] at h
    cases h

theorem value_resolveValue_eq_ok (hknows : scope₀.Knows scope) {value : Scalar}
    : (∃ r, resolveValue scope₀ type value = .ok r ∧ r.value scope = .ok v) ↔
      scope.Reads type value.text v := by
  constructor
  . rintro ⟨r, hr, hv⟩
    exact reads_of_resolveValue hr hv
  . rintro (⟨htype, hwallet, ref, href, hv⟩ | ⟨hother, hv⟩)
    . obtain ⟨r, hr⟩ := exists_resolveWalletRef hknows href hv
      refine ⟨r, (if_pos ⟨htype, hwallet⟩).trans hr, ?_⟩
      rw [value_of_resolveWalletRef href hr]
      exact hv
    . refine ⟨.resolved v, (if_neg hother).trans ?_, rfl⟩
      rw [hv]
      rfl

end Values

section Declarations

variable {scope₀ scope : Scope} {type : Option String} {reference : String} {v : Value}

theorem ParamDecl.resolve_reference_eq_ok (hplain : isWalletRef (Text.trim reference) = false)
    (hindices : argIndices (Text.trim reference) ≠ []) {r : Resolution}
    : resolve scope (.typed { type, value := none, reference := some reference }) = .ok r ↔
      ∃ t, ParamType.parse (type.getD "") = .ok t ∧
        resolveTemplate scope t (Text.trim reference) = r := by
  rw [resolve_typed_eq_ok]
  refine exists_congr fun t => and_congr_right fun _ => ?_
  constructor
  . intro h
    cases h with
    | value hvalue => cases hvalue
    | wallet _ hreference hwallet =>
      cases hreference
      rw [hplain] at hwallet
      cases hwallet
    | template _ hreference =>
      cases hreference
      rfl
  . rintro rfl
    exact .template rfl rfl hplain (by simpa using hindices)

theorem ParamDecl.value_reference_eq_ok {text : String}
    (hplain : isWalletRef (Text.trim reference) = false)
    (hindices : argIndices (Text.trim reference) ≠ [])
    (htext : substituteArgs (Text.trim reference) scope.args = .ok text)
    : value scope₀ scope (.typed { type, value := none, reference := some reference }) = .ok v ↔
      ∃ t, ParamType.parse (type.getD "") = .ok t ∧ scope.Reads t text v := by
  have hfinalize (r : Resolution)
      : (Slot.mk (.typed { type, value := none, reference := some reference }) r).finalize scope
          = .ok v ↔
        ∃ t, ParamType.parse (type.getD "") = .ok t ∧ scope.Reads t text v := by
    have hargs : (Slot.mk (.typed { type, value := none, reference := some reference })
        r).argIndices.isEmpty = false := by
      rw [argIndices_trim] at hindices
      simpa [Slot.argIndices] using hindices
    rw [Slot.finalize_eq, hargs, if_neg Bool.false_ne_true]
    constructor
    . intro h
      obtain ⟨r', hr', h⟩ := bind_eq_ok.mp h
      obtain ⟨t, ht, rfl⟩ :=
        (resolve_reference_eq_ok hplain hindices).mp (Result.eq_ok_of_changeKind hr')
      exact ⟨t, ht, (value_resolveTemplate_eq_ok htext).mp h⟩
    . rintro ⟨t, ht, hreads⟩
      have hresolve := (@resolve_reference_eq_ok scope _ _ hplain hindices _).mpr ⟨t, ht, rfl⟩
      rw [hresolve]
      exact (value_resolveTemplate_eq_ok htext).mpr hreads
  constructor
  . intro h
    obtain ⟨r, _, h⟩ := bind_eq_ok.mp h
    exact (hfinalize r).mp h
  . rintro ⟨t, ht, hreads⟩
    refine bind_eq_ok.mpr ⟨_, (resolve_reference_eq_ok hplain hindices).mpr ⟨t, ht, rfl⟩, ?_⟩
    exact (hfinalize _).mpr ⟨t, ht, hreads⟩

theorem ParamDecl.value_value_eq_ok (hknows : scope₀.Knows scope) {text : Scalar}
    : value scope₀ scope (.typed { type, value := some text, reference := none }) = .ok v ↔
      ∃ t, ParamType.parse (type.getD "") = .ok t ∧ scope.Reads t text.text v := by
  constructor
  . intro h
    obtain ⟨r, hr, hv⟩ := bind_eq_ok.mp h
    obtain ⟨t, ht, hr⟩ := bind_eq_ok.mp hr
    exact ⟨t, ht, (value_resolveValue_eq_ok hknows).mp ⟨r, hr, hv⟩⟩
  . rintro ⟨t, ht, hreads⟩
    obtain ⟨r, hr, hv⟩ := (value_resolveValue_eq_ok hknows).mpr hreads
    exact bind_eq_ok.mpr ⟨r, bind_eq_ok.mpr ⟨t, ht, hr⟩, hv⟩

end Declarations

/--
A parameter that refers to arguments has the value that the text with the arguments in it has where
it is declared as a value of the same type, and none if that has none. What the arguments were found
not to fit, they do not fit when they are read once more.
-/
theorem ParamDecl.value_reference_iff {ws₀ ws : Wallets} {scope₀ scope : Scope}
    {type : Option String} {reference : String} {text : Scalar}
    (hwallets₀ : scope₀.wallets = ws₀.directory) (hwallets : scope.wallets = ws.directory)
    (hnames : Entries.names ws₀ = Entries.names ws)
    (hplain : isWalletRef (Text.trim reference) = false)
    (hindices : argIndices (Text.trim reference) ≠ [])
    (htext : substituteArgs (Text.trim reference) scope.args = .ok text.text)
    : (∀ v,
        value scope₀ scope (.typed { type, value := none, reference := some reference }) = .ok v ↔
        value scope₀ scope (.typed { type, value := some text, reference := none }) = .ok v) ∧
      ∀ p,
        resolve scope (.typed { type, value := none, reference := some reference })
          = .ok (.deferred p .argumentMismatch) →
        ∀ v, p.value scope ≠ .ok v := by
  constructor
  . intro v
    rw [value_reference_eq_ok hplain hindices htext,
      value_value_eq_ok (Scope.knows_of_names hwallets₀ hwallets hnames)]
  . intro p hmismatch v hv
    obtain ⟨t, _, htemplate⟩ := (resolve_reference_eq_ok hplain hindices).mp hmismatch
    have hreads : scope.Reads t text.text v := by
      rw [← value_resolveTemplate_eq_ok htext, htemplate]
      exact hv
    exact not_reads_of_mismatch (Scope.knows_of_names hwallets hwallets rfl) htext htemplate hreads

theorem ParamDecl.value_reference_alice
    : ParamDecl.value richScope richScope (.typed addressParam) = .ok (.address .zero) ∧
      ParamDecl.value richScope richScope
        (.typed { type := some "address", value := some (.string "@alice"), reference := none })
        = .ok (.address .zero) := by
  have hvalue : ParamDecl.value richScope richScope (.typed addressParam)
      = .ok (.address .zero) := by decide +kernel
  have hsame := @ParamDecl.value_reference_iff richWallets richWallets richScope richScope
    (some "address") "$0" (.string "@alice") rfl rfl rfl (by decide +kernel) (by decide +kernel)
    (by decide +kernel)
  exact ⟨hvalue, (hsame.1 _).mp hvalue⟩

end Runbook
