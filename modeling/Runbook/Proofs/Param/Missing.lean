import Runbook.Proofs.Param.Slot
import Runbook.Proofs.Text.Numeral

/-!
This module contains which parameters fail for a missing argument when their command runs: those
whose tokens have no argument, and no others.
-/

namespace Runbook

def missingMark : String :=
  "insufficient arguments: "

/--
The failure tells that an argument is missing.
-/
def Report.LacksArgument {κ : Type} (e : Report κ) : Prop :=
  ∃ note ∈ e.notes, missingMark.toList <+: note.toList

def Result.LacksArgument {κ α : Type} (r : Except (Report κ) α) : Prop :=
  ∃ e, r = .error e ∧ e.LacksArgument

/--
The note differs from those about missing arguments within its first characters.
-/
def SaysOther (note : String) : Prop :=
  ¬ note.toList <+: missingMark.toList ∧ ¬ missingMark.toList <+: note.toList

instance (note : String) : Decidable (SaysOther note) :=
  inferInstanceAs (Decidable (_ ∧ _))

theorem SaysOther.append {s : String} (h : SaysOther s) (t : String) : SaysOther (s ++ t) := by
  unfold SaysOther
  rw [String.toList_append]
  refine ⟨fun hstart => h.1 ((List.prefix_append _ _).trans hstart), fun hstart => ?_⟩
  rcases List.prefix_or_prefix_of_prefix hstart (List.prefix_append s.toList t.toList) with h' | h'
  . exact h.2 h'
  . exact h.1 h'

theorem lacks_fail {α : Type} {kind : FaultKind} {note : String}
    (h : missingMark.toList <+: note.toList) : Result.LacksArgument (fail kind note : Result α) :=
  ⟨_, rfl, note, List.mem_singleton.mpr rfl, h⟩

theorem saysOther_of_head {c : Char} (hc : c ≠ 'i') {note : String} (h : note.toList.head? = some c)
    : SaysOther note := by
  obtain ⟨rest, hnote⟩ := List.head?_eq_some_iff.mp h
  unfold SaysOther
  rw [hnote]
  refine ⟨fun hstart => ?_, fun hstart => ?_⟩
  . exact hc (List.cons_prefix_cons.mp (hstart : c :: rest <+: 'i' :: _)).1
  . exact hc (List.cons_prefix_cons.mp (hstart : 'i' :: _ <+: c :: rest)).1.symm

theorem saysOther_toString (n : Int) : SaysOther (toString n) := by
  have hne : (toString n).toList ≠ [] := by
    cases n with
    | ofNat n =>
      show n.repr.toList ≠ []
      rw [Nat.toList_repr]
      exact Nat.toDigits_ne_nil
    | negSucc n =>
      show ("-" ++ (n + 1).repr).toList ≠ []
      rw [String.toList_append]
      exact List.cons_ne_nil _ _
  obtain ⟨c, rest, hchars⟩ := List.exists_cons_of_ne_nil hne
  refine saysOther_of_head ?_ (by rw [hchars]; rfl)
  rintro rfl
  have := forall_mem_toString n 'i' (by rw [hchars]; exact List.mem_cons_self ..)
  exact absurd this (by decide)

namespace Result

variable {κ α β : Type} {r : Except (Report κ) α}

theorem not_lacks_ok (x : α) : ¬ LacksArgument (.ok x : Except (Report κ) α) := by
  rintro ⟨e, h, _⟩
  cases h

theorem not_lacks_throw {kind : κ} {note : String} (h : SaysOther note)
    : ¬ LacksArgument (throw (.ofNote kind note) : Except (Report κ) α) := by
  rintro ⟨_, ⟨⟩, note', hmem, hstart⟩
  rw [List.mem_singleton.mp hmem] at hstart
  exact h.2 hstart

theorem not_lacks_fail {kind : FaultKind} {note : String} (h : SaysOther note)
    : ¬ LacksArgument (fail kind note : Result α) :=
  not_lacks_throw h

theorem lacks_mapError_iff {κ' : Type} {f : Report κ → Report κ'}
    (hf : ∀ e, (f e).LacksArgument ↔ e.LacksArgument)
    : LacksArgument (r.mapError f) ↔ LacksArgument r := by
  cases r with
  | ok x => exact iff_of_false (not_lacks_ok x) (not_lacks_ok x)
  | error e =>
    constructor
    . rintro ⟨_, ⟨⟩, h⟩
      exact ⟨e, rfl, (hf e).mp h⟩
    . rintro ⟨_, ⟨⟩, h⟩
      exact ⟨_, rfl, (hf e).mpr h⟩

theorem lacks_attach_iff {note : String} (h : SaysOther note) {r : Result α}
    : LacksArgument (r.attach note) ↔ LacksArgument r := by
  apply lacks_mapError_iff
  intro e
  unfold Report.LacksArgument
  rw [Report.attach_notes, List.exists_mem_cons_iff]
  exact or_iff_right h.2

theorem lacks_changeKind_iff {kind : FaultKind}
    : LacksArgument (changeKind kind r) ↔ LacksArgument r :=
  lacks_mapError_iff fun _ => Iff.rfl

theorem lacks_map_iff {f : α → β} : LacksArgument (r.map f) ↔ LacksArgument r := by
  cases r with
  | ok x => exact iff_of_false (not_lacks_ok _) (not_lacks_ok x)
  | error e =>
    constructor
    . rintro ⟨_, ⟨⟩, h⟩
      exact ⟨e, rfl, h⟩
    . rintro ⟨_, ⟨⟩, h⟩
      exact ⟨_, rfl, h⟩

theorem not_lacks_bind {f : α → Except (Report κ) β} (h : ¬ LacksArgument r)
    (hf : ∀ x, r = .ok x → ¬ LacksArgument (f x)) : ¬ LacksArgument (r >>= f) := by
  cases r with
  | ok x => exact hf x rfl
  | error e =>
    rintro ⟨_, ⟨⟩, hlacks⟩
    exact h ⟨e, rfl, hlacks⟩

theorem not_lacks_mapM {f : α → Except (Report κ) β} {xs : List α}
    (hf : ∀ x ∈ xs, ¬ LacksArgument (f x)) : ¬ LacksArgument (xs.mapM f) := by
  induction xs with
  | nil => exact not_lacks_ok _
  | cons x xs ih =>
    rw [List.forall_mem_cons] at hf
    rw [List.mapM_cons]
    exact not_lacks_bind hf.1 fun y _ => not_lacks_bind (ih hf.2) fun ys _ => not_lacks_ok _

end Result

open Result

section Expressions

open Calc

theorem saysOther_note {c : Cause} {note : String} (h : c.note? = some note)
    : SaysOther note := by
  cases c with
  | divisionByZero => cases h
  | identifier => cases h; exact .append (.append (by decide) _) _
  | character => cases h; exact .append (.append (.append (by decide) _) _) _
  | decimalExponent => cases h; exact .append (.append (by decide) _) _
  | binaryExponent => cases h; exact .append (.append (by decide) _) _
  | trailing => cases h; exact .append (by decide) _
  | token => cases h; exact .append (by decide) _
  | binaryOperands =>
    cases h
    exact .append (.append (.append (.append (.append (by decide) _) _) _) _) _
  | unaryOperand => cases h; exact .append (.append (.append (by decide) _) _) _
  | negativeShift => cases h; exact .append (by decide) _
  | largeShift => cases h; exact .append (.append (by decide) _) _
  | _ => cases h; decide

theorem not_lacks_report (c : Cause) : ¬ c.report.LacksArgument := by
  rintro ⟨note, hmem, hstart⟩
  exact (saysOther_note (Option.mem_toList.mp hmem)).2 hstart

theorem not_lacks_wrongKind (text : String) (v : Calc.Value) (expected : List Kind) {α : Type}
    : ¬ LacksArgument (throw (wrongKind text v expected) : Except Error α) :=
  not_lacks_throw (.append (.append (.append (.append (.append (by decide) _) _) _) _) _)

theorem not_lacks_evaluate (text : String) (expected : List Kind)
    : ¬ LacksArgument (evaluate text expected) := by
  have hwithin (c : Cause) : ¬ LacksArgument
      (throw (c.report.attach ("in expression '" ++ text ++ "'")) : Except Error Calc.Value) := by
    rintro ⟨_, ⟨⟩, note, hmem, hstart⟩
    cases List.mem_cons.mp hmem with
    | inl heq =>
      have hnote : SaysOther ("in expression '" ++ text ++ "'") :=
        .append (.append (by decide) _) _
      rw [heq] at hstart
      exact hnote.2 hstart
    | inr hmem => exact not_lacks_report c ⟨note, hmem, hstart⟩
  unfold evaluate
  dsimp only
  split
  . exact hwithin _
  . rintro ⟨_, ⟨⟩, h⟩
    exact not_lacks_report .emptyText h
  . split
    . exact hwithin _
    . split
      . exact not_lacks_ok _
      . exact not_lacks_wrongKind text _ expected

theorem not_lacks_evaluateInt (text : String) : ¬ LacksArgument (evaluateInt text) := by
  refine not_lacks_bind (not_lacks_evaluate text _) fun v _ => ?_
  split
  . exact not_lacks_ok _
  . exact not_lacks_wrongKind text _ _

theorem not_lacks_evaluateBool (text : String) : ¬ LacksArgument (evaluateBool text) := by
  refine not_lacks_bind (not_lacks_evaluate text _) fun v _ => ?_
  split
  . exact not_lacks_ok _
  . exact not_lacks_wrongKind text _ _

end Expressions

section Values

variable {scope : Scope}

theorem not_lacks_parseInteger (type : ParamType) (raw : String)
    : ¬ LacksArgument (parseInteger type raw) := by
  unfold parseInteger
  rw [lacks_attach_iff (.append (.append (.append (by decide) _) _) _), lacks_changeKind_iff]
  exact not_lacks_evaluateInt raw

theorem not_lacks_parseParam (type : ParamType) (raw : String)
    : ¬ LacksArgument (parseParam type raw) := by
  -- Every note of a type begins with words of its own, or with the text of an integer.
  cases type with
  | string => exact not_lacks_ok _
  | address =>
    unfold parseParam
    dsimp only
    split
    . exact not_lacks_ok _
    . exact not_lacks_fail (.append (.append (by decide) _) _)
  | bytes =>
    unfold parseParam parseBytes
    dsimp only
    rw [lacks_map_iff]
    split
    . split
      . exact not_lacks_ok _
      . exact not_lacks_fail (.append (.append (by decide) _) _)
    . split
      . exact not_lacks_ok _
      . exact not_lacks_fail (.append (.append (by decide) _) _)
    . exact not_lacks_ok _
  | bool =>
    unfold parseParam parseBool
    dsimp only
    rw [lacks_map_iff, lacks_attach_iff (.append (.append (by decide) _) _), lacks_changeKind_iff]
    exact not_lacks_evaluateBool raw
  | byte =>
    refine not_lacks_bind (not_lacks_parseInteger .byte raw) fun value _ => ?_
    split
    . exact not_lacks_ok _
    . exact not_lacks_fail ((saysOther_toString value).append _)
  | int int =>
    refine not_lacks_bind (not_lacks_parseInteger (.int int) raw) fun value _ => ?_
    split
    . exact not_lacks_ok _
    . exact not_lacks_fail (.append (.append (.append (by decide) _) _) _)

theorem not_lacks_fieldParse (name : String) : ¬ LacksArgument (WalletField.parse name) := by
  unfold WalletField.parse
  split
  . exact not_lacks_ok _
  . exact not_lacks_ok _
  . exact not_lacks_ok _
  . exact not_lacks_ok _
  . exact not_lacks_fail (.append (.append (by decide) _) _)

theorem not_lacks_walletRefParse (text : String) : ¬ LacksArgument (WalletRef.parse text) := by
  unfold WalletRef.parse
  split
  . exact not_lacks_ok _
  . exact not_lacks_ok _
  . next body _ _ _ =>
    have hnamed (field : WalletField) : ¬ LacksArgument (if (body.takeWhile (· ≠ '.')).isEmpty then
        fail .validation ("wallet reference '" ++ text ++ "' has no wallet name")
        else pure (WalletRef.field (String.ofList (body.takeWhile (· ≠ '.'))) field)) := by
      split
      . exact not_lacks_fail (.append (.append (by decide) _) _)
      . exact not_lacks_ok _
    dsimp only
    split
    . exact not_lacks_bind (not_lacks_fieldParse _) fun field _ => hnamed field
    . exact hnamed .address
  . exact not_lacks_fail (.append (.append (by decide) _) _)

theorem not_lacks_walletRefValue (wallets : Directory) (sender? : Option Address) (r : WalletRef)
    : ¬ LacksArgument (r.value wallets sender?) := by
  unfold WalletRef.value
  split
  . split
    . exact not_lacks_ok _
    . exact not_lacks_fail (by decide)
  . next name =>
    split
    . exact not_lacks_ok _
    . have hname : SaysOther name.text := by
        cases name <;> decide
      exact not_lacks_fail (.append (.append (.append hname _) _) _)

theorem not_lacks_resolveWalletRef (text : String)
    : ¬ LacksArgument (resolveWalletRef scope text) := by
  refine not_lacks_bind (not_lacks_walletRefParse text) fun r _ => ?_
  split
  . exact not_lacks_ok _
  . split
    . exact not_lacks_ok _
    . exact not_lacks_fail
        (.append (.append (.append (.append (.append (.append (by decide) _) _) _) _) _) _)

theorem not_lacks_typeParse (name : String) : ¬ LacksArgument (ParamType.parse name) := by
  have hsized (signed : Bool) (width : List Char)
      : ¬ LacksArgument (ParamType.parseSized name signed width) := by
    unfold ParamType.parseSized
    split
    . exact not_lacks_ok _
    . exact not_lacks_fail (.append (.append (by decide) _) _)
  unfold ParamType.parse
  split
  . exact not_lacks_ok _
  . exact not_lacks_ok _
  . exact not_lacks_ok _
  . exact not_lacks_ok _
  . exact not_lacks_ok _
  . exact not_lacks_ok _
  . exact not_lacks_ok _
  . exact not_lacks_ok _
  . split
    . exact hsized false _
    . exact hsized true _
    . exact not_lacks_fail (.append (.append (by decide) _) _)

theorem not_lacks_resolveValue (type : ParamType) (value : Scalar)
    : ¬ LacksArgument (resolveValue scope type value) := by
  unfold resolveValue
  split
  . exact not_lacks_resolveWalletRef _
  . rw [lacks_map_iff, lacks_attach_iff (.append (.append (by decide) _) _), lacks_changeKind_iff]
    exact not_lacks_parseParam type _

theorem not_lacks_resolveReference (type : ParamType) (reference : String)
    : ¬ LacksArgument (resolveReference scope type reference) := by
  unfold resolveReference
  dsimp only
  split
  . exact not_lacks_resolveWalletRef _
  . split
    . exact not_lacks_fail (.append (.append (.append (.append (by decide) _) _) _) _)
    . exact not_lacks_ok _

theorem not_lacks_resolve (d : ParamDecl) : ¬ LacksArgument (d.resolve scope) := by
  cases d with
  | plain s => exact not_lacks_ok _
  | typed p =>
    refine not_lacks_bind (not_lacks_typeParse _) fun type _ => ?_
    split
    . exact not_lacks_fail (.append (.append (by decide) _) _)
    . exact not_lacks_fail (.append (.append (by decide) _) _)
    . exact not_lacks_resolveValue type _
    . exact not_lacks_resolveReference type _

end Values

def ParamDecl.template? : ParamDecl → Option String
  | .plain _ => none
  | .typed p =>
    p.reference.bind fun reference =>
      if isWalletRef (Text.trim reference) then none else some (Text.trim reference)

theorem ParamDecl.template?_typed (p : TypedParam)
    : (typed p).template? = p.reference.bind fun reference =>
        if isWalletRef (Text.trim reference) then none else some (Text.trim reference) := rfl

theorem ne_template_of_resolveWalletRef {scope : Scope} {text : String} {r : Resolution}
    (h : resolveWalletRef scope text = .ok r)
    : ∀ template type reason, r ≠ .deferred (.template template type) reason := by
  rintro template type reason rfl
  obtain ⟨ref, _, h⟩ := bind_eq_ok.mp h
  split at h
  . cases h
  . split at h <;> cases h

theorem ne_template_of_map {α : Type} {x : Result α} {f : α → Value} {r : Resolution}
    (h : (x.map fun a => Resolution.resolved (f a)) = .ok r)
    : ∀ template type reason, r ≠ .deferred (.template template type) reason := by
  rintro template type reason rfl
  obtain ⟨_, _, h⟩ := map_eq_ok.mp h
  cases h

theorem eq_of_resolveTemplate {scope : Scope} {type type' : ParamType} {text template : String}
    {reason : DeferReason}
    (h : resolveTemplate scope type template = .deferred (.template text type') reason)
    : text = template := by
  unfold resolveTemplate at h
  split at h
  . cases h
    rfl
  . dsimp only at h
    split at h
    . next r hr =>
      split at hr
      . exact absurd h (ne_template_of_resolveWalletRef hr _ _ _)
      . exact absurd h (ne_template_of_map (f := id) hr _ _ _)
    . cases h
      rfl

theorem template_of_resolve {scope : Scope} {d : ParamDecl} {text : String} {type : ParamType}
    {reason : DeferReason} (h : d.resolve scope = .ok (.deferred (.template text type) reason))
    : d.template? = some text ∧ (argIndices text).isEmpty = false := by
  cases d with
  | plain s => cases h
  | typed p =>
    obtain ⟨type', _, h⟩ := ParamDecl.resolve_typed_eq_ok.mp h
    generalize hr : Resolution.deferred (.template text type) reason = r at h
    cases h with
    | value _ _ h =>
      unfold resolveValue at h
      split at h
      . exact absurd hr.symm (ne_template_of_resolveWalletRef h _ _ _)
      . exact absurd hr.symm (ne_template_of_map (f := id) h _ _ _)
    | wallet _ _ _ h => exact absurd hr.symm (ne_template_of_resolveWalletRef h _ _ _)
    | template _ hreference hwallet hindices =>
      rw [ParamDecl.template?_typed, hreference, Option.bind_some, hwallet,
        eq_of_resolveTemplate hr.symm]
      exact ⟨rfl, hindices⟩

theorem resolve_of_template? {scope : Scope} {d : ParamDecl} {r : Resolution} {text : String}
    (h : d.resolve scope = .ok r) (htext : d.template? = some text)
    : (argIndices text).isEmpty = false ∧
      ∃ type, ∀ scope', d.resolve scope' = .ok (resolveTemplate scope' type text) := by
  cases d with
  | plain s => cases htext
  | typed p =>
    rw [ParamDecl.template?_typed] at htext
    obtain ⟨reference, hreference, htext⟩ := Option.bind_eq_some_iff.mp htext
    split at htext
    . cases htext
    . next hwallet =>
      cases htext
      obtain ⟨type, htype, h⟩ := ParamDecl.resolve_typed_eq_ok.mp h
      cases h with
      | value _ hnone _ => cases hreference.symm.trans hnone
      | wallet _ hsome hwallet' _ =>
        cases hreference.symm.trans hsome
        exact absurd hwallet' hwallet
      | template hvalue hsome hplain hindices =>
        cases hreference.symm.trans hsome
        refine ⟨hindices, type, fun scope' => ?_⟩
        exact ParamDecl.resolve_typed_eq_ok.mpr
          ⟨type, htype, .template hvalue hreference hplain hindices⟩

theorem Param.lacks_template_iff (scope : Scope) (text : String) (type : ParamType)
    : LacksArgument ((template text type).value scope) ↔ Unsupplied scope.args text := by
  rw [← exists_missing_iff]
  unfold Param.value
  dsimp only
  cases hsub : substituteArgs text scope.args with
  | error index =>
    refine iff_of_true (lacks_fail ?_) ⟨index, rfl⟩
    have hmark : missingMark.toList <+: "insufficient arguments: '".toList := by decide
    simp only [String.toList_append, List.append_assoc]
    exact hmark.trans (List.prefix_append _ _)
  | ok raw =>
    refine iff_of_false ?_ (by rintro ⟨index, h⟩; cases h)
    dsimp only
    split
    . refine not_lacks_bind ?_ fun r _ => not_lacks_walletRefValue _ _ r
      rw [lacks_changeKind_iff]
      exact not_lacks_walletRefParse raw
    . exact not_lacks_parseParam type raw

theorem Param.not_lacks_value {scope : Scope} {p : Param}
    (h : ∀ text type, p ≠ .template text type) : ¬ LacksArgument (p.value scope) := by
  cases p with
  | literal v => exact not_lacks_ok v
  | wallet r => exact not_lacks_walletRefValue _ _ r
  | template text type => exact absurd rfl (h text type)

namespace Slot

def Unsupplied (args : List String) (s : Slot) : Prop :=
  ∃ text, s.decl.template? = some text ∧ Runbook.Unsupplied args text

theorem argIndices_of_template? {s : Slot} {text : String} (h : s.decl.template? = some text)
    : s.argIndices = Runbook.argIndices text := by
  unfold Slot.argIndices
  cases hdecl : s.decl with
  | plain scalar =>
    rw [hdecl] at h
    cases h
  | typed p =>
    rw [hdecl, ParamDecl.template?_typed] at h
    obtain ⟨reference, hreference, h⟩ := Option.bind_eq_some_iff.mp h
    split at h
    . cases h
    . cases h
      dsimp only
      rw [hreference, argIndices_trim]
      rfl

theorem not_lacks_of_resolve {scope scope' : Scope} {d : ParamDecl} {r : Resolution}
    (h : d.resolve scope = .ok r)
    (hsupplied : ∀ text, d.template? = some text → ¬ Runbook.Unsupplied scope'.args text)
    : ¬ LacksArgument
        (match r with
        | .resolved v => pure v
        | .deferred p _ => p.value scope') := by
  cases r with
  | resolved v => exact not_lacks_ok v
  | deferred p reason =>
    cases p with
    | template text type =>
      rw [Param.lacks_template_iff]
      exact hsupplied text (template_of_resolve h).1
    | literal v => exact Param.not_lacks_value (by rintro text type ⟨⟩)
    | wallet ref => exact Param.not_lacks_value (by rintro text type ⟨⟩)

theorem lacks_finalize_iff {s : Slot} (hs : ∃ scope, s.decl.resolve scope = .ok s.resolution)
    (scope : Scope) : LacksArgument (s.finalize scope) ↔ s.Unsupplied scope.args := by
  obtain ⟨checked, hs⟩ := hs
  constructor
  . intro hlacks
    by_contra hsupplied
    have hsupplied' : ∀ text, s.decl.template? = some text → ¬ Runbook.Unsupplied scope.args text :=
      fun text htext hmissing => hsupplied ⟨text, htext, hmissing⟩
    unfold finalize at hlacks
    dsimp only at hlacks
    split at hlacks
    . exact absurd hlacks (not_lacks_of_resolve hs hsupplied')
    . refine absurd hlacks (not_lacks_bind ?_ fun r hr => ?_)
      . rw [lacks_changeKind_iff]
        exact not_lacks_resolve s.decl
      . exact not_lacks_of_resolve (Result.eq_ok_of_changeKind hr) hsupplied'
  . rintro ⟨text, htext, hmissing⟩
    obtain ⟨hindices, type, hresolve⟩ := resolve_of_template? hs htext
    obtain ⟨index, hsub⟩ := exists_missing_iff.mpr hmissing
    unfold finalize
    rw [argIndices_of_template? htext, hindices, hresolve]
    unfold resolveTemplate
    rw [hsub]
    exact (Param.lacks_template_iff scope text type).mpr hmissing

end Slot

end Runbook
