import Runbook.Proofs.Param.Slot
import Runbook.Proofs.Param.Typed
import Runbook.Wallet.Basic

/-!
This module contains the types of the values that parameters get when their command runs: the
declared type, unless the parameter stands for a wallet. A reference to a wallet carries no type,
and its value is one of the type of the wallet's field.
-/

namespace Runbook

def WalletField.type : WalletField → ParamType
  | .address => .address
  | .balance => .int ⟨false, some 256⟩
  | .keystore => .string
  | .keyfile => .string

def WalletRef.type : WalletRef → ParamType
  | .sender => .address
  | .field _ name => name.type

/--
The balances that are known are amounts of at most 256 bits.
-/
def Wallets.Bounded (ws : Wallets) : Prop :=
  ∀ name w n, Entries.find? ws name = some w → w.balance = some n → n < 2 ^ 256

namespace TypedParam

def namesWallet (p : TypedParam) : Bool :=
  p.reference.any fun reference => isWalletRef (Text.trim reference)

def text? (p : TypedParam) (args : List String) : Option String :=
  match p.value, p.reference with
  | some value, _ => some value.text
  | none, some reference =>
    if p.namesWallet then some (Text.trim reference)
    else (substituteArgs (Text.trim reference) args).toOption
  | none, none => none

def refersBy (p : TypedParam) (type : ParamType) (text : String) : Prop :=
  isWalletRef text ∧ (type = .address ∨ p.namesWallet)

end TypedParam

def Scope.Refers (scope : Scope) (text : String) (v : Value) : Prop :=
  ∃ ref, WalletRef.parse text = .ok ref ∧ ref.value scope.wallets scope.sender = .ok v

/--
The value of the text when the command runs: that of a reference to a wallet where one may stand in
for the type, or else what is read as one of the type.
-/
def Scope.Reads (scope : Scope) (type : ParamType) (text : String) (v : Value) : Prop :=
  (type = .address ∧ isWalletRef text = true ∧ scope.Refers text v) ∨
    (¬ (type = .address ∧ isWalletRef text = true) ∧ parseParam type text = .ok v)

def Resolution.value (scope : Scope) : Resolution → Result Value
  | .resolved v => pure v
  | .deferred p _ => p.value scope

theorem Slot.finalize_eq (scope : Scope) (s : Slot)
    : s.finalize scope
        =
      if s.argIndices.isEmpty then s.resolution.value scope
      else Result.changeKind .resolution (s.decl.resolve scope) >>= Resolution.value scope := by
  unfold finalize
  dsimp only
  split <;> rfl

section Typed

variable {scope scope₀ : Scope} {type : ParamType} {text : String} {r : Resolution} {v : Value}

theorem accepts_uint256 {n : Nat} (h : n < 2 ^ 256)
    : IntType.accepts ⟨false, some 256⟩ n = true := by
  show decide (bitLength n ≤ 256) = true
  unfold bitLength
  split
  . rfl
  . next hne => exact decide_eq_true ((Nat.log2_lt hne).mpr h)

theorem fits_of_directory {ws : Wallets} (hws : ws.Bounded) {wallet : String} {field : WalletField}
    (h : ws.directory.field? wallet field = some v) : v.Fits field.type := by
  obtain ⟨w, hw, hv⟩ := Option.bind_eq_some_iff.mp h
  cases field with
  | address =>
    cases hv
    exact .address _
  | balance =>
    obtain ⟨n, hn, rfl⟩ := Option.map_eq_some_iff.mp hv
    exact .int (accepts_uint256 (hws wallet w n hw hn))
  | keystore =>
    obtain ⟨path, _, rfl⟩ := Option.map_eq_some_iff.mp hv
    exact .string _
  | keyfile =>
    obtain ⟨path, _, rfl⟩ := Option.map_eq_some_iff.mp hv
    exact .string _

theorem fits_of_ref {ws : Wallets} (hws : ws.Bounded) {sender? : Option Address} {ref : WalletRef}
    (h : ref.value ws.directory sender? = .ok v) : v.Fits ref.type := by
  cases ref with
  | sender =>
    cases sender? with
    | none => cases h
    | some a =>
      cases h
      exact .address a
  | field wallet name =>
    unfold WalletRef.value at h
    dsimp only at h
    split at h
    . next hv =>
      cases h
      exact fits_of_directory hws hv
    . cases h

theorem refers_of_resolve (hresolve : resolveWalletRef scope₀ text = .ok r)
    (h : r.value scope = .ok v) : scope.Refers text v := by
  obtain ⟨ref, href, hresolve⟩ := bind_eq_ok.mp hresolve
  refine ⟨ref, href, ?_⟩
  cases ref with
  | sender =>
    cases hresolve
    exact h
  | field wallet name =>
    dsimp only at hresolve
    split at hresolve
    . cases hresolve
      exact h
    . cases hresolve

theorem reads_of_template {template : String}
    (h : (Param.template template type).value scope = .ok v)
    : ∃ text, substituteArgs template scope.args = .ok text ∧ scope.Reads type text v := by
  unfold Param.value at h
  dsimp only at h
  split at h
  . cases h
  . next text htext =>
    refine ⟨text, htext, ?_⟩
    split at h
    . next hwallet =>
      obtain ⟨ref, href, h⟩ := bind_eq_ok.mp h
      exact .inl ⟨hwallet.1, hwallet.2, ref, Result.eq_ok_of_changeKind href, h⟩
    . next hwallet => exact .inr ⟨hwallet, h⟩

theorem reads_of_resolveTemplate {template : String} (hargs : scope₀.args = scope.args)
    (h : (resolveTemplate scope₀ type template).value scope = .ok v)
    : ∃ text, substituteArgs template scope.args = .ok text ∧ scope.Reads type text v := by
  unfold resolveTemplate at h
  rw [hargs] at h
  split at h
  . exact reads_of_template h
  . next text htext =>
    dsimp only at h
    split at h
    . next r hr =>
      refine ⟨text, htext, ?_⟩
      split at hr
      . next hwallet => exact .inl ⟨hwallet.1, hwallet.2, refers_of_resolve hr h⟩
      . next hwallet =>
        obtain ⟨v', hv', rfl⟩ := map_eq_ok.mp hr
        cases h
        exact .inr ⟨hwallet, hv'⟩
    . exact reads_of_template h

theorem reads_of_resolveValue {value : Scalar} (hresolve : resolveValue scope₀ type value = .ok r)
    (h : r.value scope = .ok v) : scope.Reads type value.text v := by
  unfold resolveValue at hresolve
  split at hresolve
  . next hwallet => exact .inl ⟨hwallet.1, hwallet.2, refers_of_resolve hresolve h⟩
  . next hwallet =>
    obtain ⟨v', hv', rfl⟩ := map_eq_ok.mp hresolve
    cases h
    exact .inr ⟨hwallet, Result.eq_ok_of_changeKind (Result.attach_eq_ok.mp hv')⟩

end Typed

namespace TypedParam

variable {p : TypedParam} {scope scope₀ : Scope} {type : ParamType} {text : String} {r : Resolution}
  {v : Value}

def Yields (p : TypedParam) (scope : Scope) (type : ParamType) (text : String) (v : Value) : Prop :=
  (p.refersBy type text ∧ ∃ ref, WalletRef.parse text = .ok ref ∧
      ref.value scope.wallets scope.sender = .ok v ∧ v.Fits ref.type) ∨
    (¬ p.refersBy type text ∧ parseParam type text = .ok v ∧ v.Fits type)

theorem yields_of_refers {ws : Wallets} (hws : ws.Bounded) (hwallets : scope.wallets = ws.directory)
    (hrefers : p.refersBy type text) (h : scope.Refers text v) : p.Yields scope type text v := by
  obtain ⟨ref, href, hv⟩ := h
  have hfits : v.Fits ref.type := by
    rw [hwallets] at hv
    exact fits_of_ref hws hv
  exact .inl ⟨hrefers, ref, href, hv, hfits⟩

theorem yields_of_reads {ws : Wallets} (hws : ws.Bounded) (hwallets : scope.wallets = ws.directory)
    (hnames : p.namesWallet = false) (h : scope.Reads type text v)
    : p.Yields scope type text v := by
  rcases h with ⟨htype, htext, hrefers⟩ | ⟨hother, hv⟩
  . exact yields_of_refers hws hwallets ⟨htext, .inl htype⟩ hrefers
  . refine .inr ⟨?_, hv, fits_of_parseParam hv⟩
    rintro ⟨htext, htype | hnamed⟩
    . exact hother ⟨htype, htext⟩
    . rw [hnames] at hnamed
      cases hnamed

theorem namesWallet_of_none (hreference : p.reference = none) : p.namesWallet = false := by
  rw [namesWallet, hreference]
  rfl

theorem namesWallet_reference {reference : String} (hreference : p.reference = some reference)
    : p.namesWallet = isWalletRef (Text.trim reference) := by
  rw [namesWallet, hreference]
  rfl

theorem text?_value {value : Scalar} (hvalue : p.value = some value) (args : List String)
    : p.text? args = some value.text := by
  rw [text?, hvalue]

theorem text?_reference {reference : String} (hvalue : p.value = none)
    (hreference : p.reference = some reference) (args : List String)
    : p.text? args = if isWalletRef (Text.trim reference) then some (Text.trim reference)
        else (substituteArgs (Text.trim reference) args).toOption := by
  simp only [text?, namesWallet, hvalue, hreference, Option.any_some]

theorem yields_of_resolve {ws : Wallets} (hws : ws.Bounded)
    (htype : ParamType.parse (p.type.getD "") = .ok type)
    (hresolve : (ParamDecl.typed p).resolve scope₀ = .ok r)
    (hargs : scope₀.args = scope.args ∨ (Slot.mk (.typed p) r).argIndices.isEmpty = true)
    (hwallets : scope.wallets = ws.directory) (h : r.value scope = .ok v)
    : ∃ text, p.text? scope.args = some text ∧ p.Yields scope type text v := by
  obtain ⟨type', htype', hresolve⟩ := ParamDecl.resolve_typed_eq_ok.mp hresolve
  cases htype.symm.trans htype'
  cases hresolve with
  | @value value r hvalue hreference hresolve =>
    exact ⟨_, text?_value hvalue _, yields_of_reads hws hwallets (namesWallet_of_none hreference)
      (reads_of_resolveValue hresolve h)⟩
  | @wallet reference r hvalue hreference hwallet hresolve =>
    have hrefers : p.refersBy type (Text.trim reference) :=
      ⟨hwallet, .inr ((namesWallet_reference hreference).trans hwallet)⟩
    rw [text?_reference hvalue hreference, if_pos hwallet]
    exact ⟨_, rfl, yields_of_refers hws hwallets hrefers (refers_of_resolve hresolve h)⟩
  | @template reference hvalue hreference hwallet hindices =>
    rw [text?_reference hvalue hreference, if_neg (Bool.eq_false_iff.mp hwallet)]
    cases hargs with
    | inl hargs =>
      obtain ⟨text, htext, hreads⟩ := reads_of_resolveTemplate hargs h
      rw [htext]
      have hnames := (namesWallet_reference hreference).trans hwallet
      exact ⟨text, rfl, yields_of_reads hws hwallets hnames hreads⟩
    | inr hempty =>
      -- The reference is that of the declaration, so that it does name arguments.
      rw [Slot.argIndices_reference hreference, hindices] at hempty
      cases hempty

end TypedParam

/--
The value that a declared parameter gets has the declared type, unless its text refers to a wallet:
then it has the type of what is referred to.
-/
theorem Slot.fits_finalize {p : TypedParam} {type : ParamType} {scope₀ scope : Scope}
    {r : Resolution} {v : Value} {ws : Wallets}
    (hws : ws.Bounded) (htype : ParamType.parse (p.type.getD "") = .ok type)
    (hresolve : (ParamDecl.typed p).resolve scope₀ = .ok r)
    (hwallets : scope.wallets = ws.directory)
    (h : (Slot.mk (.typed p) r).finalize scope = .ok v)
    : ∃ text, p.text? scope.args = some text ∧ p.Yields scope type text v := by
  unfold finalize at h
  dsimp only at h
  split at h
  . next hempty => exact TypedParam.yields_of_resolve hws htype hresolve (.inr hempty) hwallets h
  . obtain ⟨r', hr', h⟩ := bind_eq_ok.mp h
    have hresolve' := Result.eq_ok_of_changeKind hr'
    exact TypedParam.yields_of_resolve hws htype hresolve' (.inl rfl) hwallets h

def richWallets : Wallets :=
  [("alice", { address := .zero, credential := .keyfile ⟨"alice.json"⟩, balance := some 300 })]

def richScope : Scope where
  command := "pay"
  args := ["@alice"]
  wallets := richWallets.directory
  sender := none

theorem bounded_richWallets : richWallets.Bounded := by
  intro name w n hw hn
  rw [richWallets, Entries.find?_cons] at hw
  split at hw
  . cases hw
    cases hn
    decide
  . cases hw

def addressParam : TypedParam where
  type := some "address"
  value := none
  reference := some "$0"

theorem Slot.fits_finalize_alice
    : (ParamDecl.typed addressParam).resolve richScope
        = .ok (.deferred (.wallet (.field "alice" .address)) .walletState) ∧
      ∃ text, addressParam.text? ["@alice"] = some text ∧
        addressParam.Yields richScope .address text (.address .zero) := by
  have htype : ParamType.parse (addressParam.type.getD "") = .ok .address := by decide +kernel
  have hresolve : (ParamDecl.typed addressParam).resolve richScope
      = .ok (.deferred (.wallet (.field "alice" .address)) .walletState) := by decide +kernel
  have hfinalize : (Slot.mk (.typed addressParam)
      (.deferred (.wallet (.field "alice" .address)) .walletState)).finalize richScope
      = .ok (.address .zero) := by decide +kernel
  exact ⟨hresolve, fits_finalize bounded_richWallets htype hresolve rfl hfinalize⟩

def balanceParam : TypedParam where
  type := some "uint8"
  value := none
  reference := some "@alice.balance"

theorem Slot.finalize_wide_balance
    : ParamType.parse (balanceParam.type.getD "") = .ok (.int ⟨false, some 8⟩) ∧
      ∃ r, (ParamDecl.typed balanceParam).resolve richScope = .ok r ∧
        (Slot.mk (.typed balanceParam) r).finalize richScope = .ok (.uint256 300) ∧
        ¬ (Value.uint256 300).Fits (.int ⟨false, some 8⟩) := by
  refine ⟨by decide +kernel, .deferred (.wallet (.field "alice" .balance)) .walletState,
    by decide +kernel, by decide +kernel, ?_⟩
  rintro ⟨⟩

end Runbook
