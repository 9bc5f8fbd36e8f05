import Runbook.Engine.Intent
import Runbook.Proofs.Plan.Commands

/-!
This module contains which intents a write can come to, and what their transactions do.
-/

namespace Runbook

/--
The wei that an amount stands for. An amount of a token stands for none.
-/
def weiOf (amount : Option Amount) : Nat :=
  ((amount.filter (!·.isToken)).map Amount.value).getD 0

theorem weiOf_eq {amount : Option Amount} (h : ∀ a, amount = some a → a.isToken = false)
    : weiOf amount = (amount.map Amount.value).getD 0 := by
  cases amount with
  | none => rfl
  | some a =>
    simp [weiOf, Option.filter, h a rfl]

theorem filter_eq_none_iff {amount : Option Amount}
    : amount.filter Amount.isToken = none ↔ ∀ a, amount = some a → a.isToken = false := by
  cases amount with
  | none => simp
  | some a => simp [Option.filter]

theorem Amount.isToken_of_filter {amount : Option Amount} {a : Amount}
    (h : amount.filter Amount.isToken = some a) : amount = some a ∧ a.isToken = true := by
  rw [Option.filter_eq_some_iff] at h
  exact h

theorem Amount.exists_of_isToken {a : Amount} (h : a.isToken = true)
    : ∃ unit, a.denomination = some unit := by
  unfold isToken at h
  split at h
  . next unit hunit => exact ⟨unit, hunit⟩
  . cases h

namespace Build

/--
The data create the contract with these values for its constructor, which has to take as many.
-/
inductive Deploys (b : Build) : List Value → Bytes → Prop where
  | bare (h : b.interface.constructor? = none) : b.Deploys [] b.bytecode
  | constructor {inputs : List Abi.Parameter} {values : List Value} {args : List Abi.AbiValue}
      (h : b.interface.constructor? = some inputs) (hlength : inputs.length = values.length)
      (hargs : Abi.arguments 0 inputs values = .ok args)
      : b.Deploys values (b.bytecode ++ Abi.layout (Abi.AbiValue.parts args))

variable {b : Build} {values : List Value} {data : Bytes}

theorem deployData_eq_ok
    : b.interface.deployData b.bytecode values = .ok data ↔ b.Deploys values data := by
  unfold Abi.Interface.deployData
  constructor
  . intro h
    split at h
    . next inputs hinputs =>
      split at h
      . cases h
      . next hlength =>
        obtain ⟨args, hargs, h⟩ := bind_eq_ok.mp h
        cases h
        exact .constructor hinputs (not_not.mp hlength) (Result.attach_eq_ok.mp hargs)
    . next hnone =>
      split at h
      . next hempty =>
        cases h
        rw [List.isEmpty_iff.mp hempty]
        exact .bare hnone
      . cases h
  . intro h
    cases h with
    | bare h =>
      rw [h]
      rfl
    | constructor h hlength hargs =>
      rw [h]
      dsimp only
      rw [if_neg (not_not.mpr hlength), hargs]
      rfl

theorem Deploys.isPrefix (h : b.Deploys values data) : b.bytecode <+: data := by
  cases h with
  | bare => exact List.prefix_refl _
  | constructor => exact List.prefix_append _ _

end Build

namespace Plan

variable {p : Plan} {c : WriteCommand} {args : List String} {sender : Address}

/--
Which intent the command comes to. The first one moves wei, the third one tokens.
-/
inductive Means (p : Plan) (c : WriteCommand) (args : List String)
    : Option Amount → Intent → Prop where
  | transfer {a : Amount} {recipient : Address} (htarget : c.target = none)
      (hwei : a.isToken = false) (hrecipient : p.recipientOf c args = .ok (some recipient))
      : Means p c args (some a) (.transfer recipient a.value)
  | deploy {amount : Option Amount} {id : Nat} {recipient : Option Address}
      (htarget : c.target = some id) (hundeployed : p.isDeployed id = false)
      (hwei : ∀ a, amount = some a → a.isToken = false)
      (hrecipient : p.recipientOf c args = .ok recipient)
      : Means p c args amount (.deploy id (weiOf amount))
  | tokens {a : Amount} {id : Nat} {recipient : Address} (htoken : a.isToken = true)
      (hsymbol : p.catalogue.findSymbol? (a.denomination.getD "") = some id)
      (hdeployed : p.isDeployed id = true)
      (hrecipient : p.recipientOf c args = .ok (some recipient))
      : Means p c args (some a) (.tokens id recipient a.value)
  | method {amount : Option Amount} {id : Nat} {name : String} {recipient : Option Address}
      (htarget : c.target = some id) (hdeployed : p.isDeployed id = true)
      (hmethod : c.method = some name) (hwei : ∀ a, amount = some a → a.isToken = false)
      (hrecipient : p.recipientOf c args = .ok recipient)
      : Means p c args amount (.method id name (weiOf amount))

theorem means_of_tokenIntent {a : Amount} {recipient : Option Address} {intent : Intent}
    (htoken : a.isToken = true) (hrecipient : p.recipientOf c args = .ok recipient)
    (h : p.tokenIntent a recipient = .ok intent) : p.Means c args (some a) intent := by
  unfold tokenIntent at h
  dsimp only at h
  split at h
  . cases h
  . next hsymbol =>
    split at h
    . next hdeployed =>
      split at h
      . cases h
        exact .tokens htoken hsymbol hdeployed hrecipient
      . cases h
    . cases h

theorem methodIntent_eq_ok {value : Nat} {intent : Intent}
    : methodIntent c value = .ok intent ↔
      ∃ id name, c.target = some id ∧ c.method = some name ∧ .method id name value = intent := by
  unfold methodIntent
  cases c.target with
  | none => exact iff_of_false (by intro h; cases h) (by simp)
  | some id =>
    cases c.method with
    | none => exact iff_of_false (by intro h; cases h) (by simp)
    | some name => simp [pure, Except.pure]

theorem means_of_intent {amount : Option Amount} {intent : Intent}
    (h : p.intent c args amount = .ok intent) : p.Means c args amount intent := by
  unfold Plan.intent at h
  obtain ⟨recipient, hrecipient, hrest⟩ := bind_eq_ok.mp h
  dsimp only at hrest
  split at hrest
  . next a _ htokens =>
    obtain ⟨rfl, htoken⟩ := Amount.isToken_of_filter htokens
    exact means_of_tokenIntent htoken hrecipient hrest
  . next id htokens htarget =>
    have hwei := filter_eq_none_iff.mp htokens
    split at hrest
    . next hdeployed =>
      obtain ⟨id', name, htarget', hmethod, rfl⟩ := methodIntent_eq_ok.mp hrest
      rw [htarget] at htarget'
      cases htarget'
      exact .method htarget hdeployed hmethod hwei hrecipient
    . next hdeployed =>
      cases hrest
      exact .deploy htarget (by simpa using hdeployed) hwei hrecipient
  . next htokens htarget =>
    have hwei := filter_eq_none_iff.mp htokens
    split at hrest
    . cases hrest
      exact .transfer htarget (hwei _ rfl) hrecipient
    . obtain ⟨id, name, hsome, _⟩ := methodIntent_eq_ok.mp hrest
      rw [htarget] at hsome
      cases hsome

theorem intent_of_means {amount : Option Amount} {intent : Intent}
    (h : p.Means c args amount intent) : p.intent c args amount = .ok intent := by
  unfold Plan.intent
  cases h with
  | @transfer a recipient htarget hwei hrecipient =>
    have hfilter : (some a).filter Amount.isToken = none := by simp [Option.filter, hwei]
    rw [hrecipient, htarget, hfilter]
    rfl
  | deploy htarget hundeployed hwei hrecipient =>
    rw [hrecipient, htarget, filter_eq_none_iff.mpr hwei]
    dsimp only [bind, Except.bind]
    rw [hundeployed]
    rfl
  | @tokens a id recipient htoken hsymbol hdeployed hrecipient =>
    rw [hrecipient, Option.filter_some_pos htoken]
    show p.tokenIntent a (some recipient) = _
    unfold tokenIntent
    dsimp only
    rw [hsymbol]
    dsimp only
    rw [hdeployed]
    rfl
  | method htarget hdeployed hmethod hwei hrecipient =>
    rw [hrecipient, htarget, filter_eq_none_iff.mpr hwei]
    dsimp only [bind, Except.bind]
    rw [hdeployed, if_pos rfl]
    exact methodIntent_eq_ok.mpr ⟨_, _, htarget, hmethod, rfl⟩

theorem intent_eq_ok_iff {amount : Option Amount} {intent : Intent}
    : p.intent c args amount = .ok intent ↔ p.Means c args amount intent :=
  ⟨means_of_intent, intent_of_means⟩

theorem undeployed_of_intent {amount : Option Amount} {id value : Nat}
    (h : p.intent c args amount = .ok (.deploy id value))
    : c.target = some id ∧ p.isDeployed id = false := by
  cases intent_eq_ok_iff.mp h with
  | deploy htarget hundeployed => exact ⟨htarget, hundeployed⟩

def unbound : Fault :=
  .ofNote .resolution "write command has no contract instance to call"

theorem fail_ne_unbound {α : Type} {kind : FaultKind} {note : String}
    (h : note.toList.head? ≠ some 'w') : (fail kind note : Result α) ≠ .error unbound := by
  intro heq
  cases heq
  exact h rfl

theorem pure_ne_unbound {α : Type} (x : α) : (pure x : Result α) ≠ .error unbound := by
  intro h
  cases h

theorem addressOf_ne_unbound (ws : Wallets) (name : String)
    : ws.addressOf name ≠ .error unbound := by
  unfold Wallets.addressOf
  split
  . exact pure_ne_unbound _
  . exact fail_ne_unbound (by simp)

theorem resolve_ne_unbound (ws : Wallets) (args : List String) (r : Recipient)
    : r.resolve ws args ≠ .error unbound := by
  unfold Recipient.resolve
  split
  . exact pure_ne_unbound _
  . exact addressOf_ne_unbound _ _
  . split
    . exact fail_ne_unbound (by simp)
    . dsimp only
      split
      . exact addressOf_ne_unbound _ _
      . split
        . exact pure_ne_unbound _
        . exact fail_ne_unbound (by simp)

theorem tokenIntent_ne_unbound (a : Amount) (recipient : Option Address)
    : p.tokenIntent a recipient ≠ .error unbound := by
  unfold tokenIntent
  dsimp only
  split
  . exact fail_ne_unbound (by simp)
  . split
    . split
      . exact pure_ne_unbound _
      . exact fail_ne_unbound (by simp)
    . exact fail_ne_unbound (by simp)

theorem methodIntent_ne_unbound {id : Nat} (value : Nat) (h : c.target = some id)
    : methodIntent c value ≠ .error unbound := by
  unfold methodIntent
  rw [h]
  split
  . next hnone => cases hnone
  . exact fun heq => absurd (Except.error.inj heq) (by decide)
  . exact pure_ne_unbound _

theorem recipientOf_cases (p : Plan) (c : WriteCommand) (args : List String)
    : (∃ e, p.recipientOf c args = .error e ∧ e ≠ unbound) ∨
      (∃ recipient, p.recipientOf c args = .ok recipient ∧
        recipient.isSome = c.recipient.isSome) := by
  unfold recipientOf
  cases c.recipient with
  | none => exact .inr ⟨none, rfl, rfl⟩
  | some r =>
    have hr := resolve_ne_unbound p.wallets args r
    dsimp only
    cases hresolve : r.resolve p.wallets args with
    | ok a => exact .inr ⟨some a, rfl, rfl⟩
    | error e =>
      refine .inl ⟨e, rfl, ?_⟩
      rintro rfl
      exact hr hresolve

theorem intent_ne_unbound {amount : Option Amount} (hc : c.Fits)
    (hamount : amount.isSome = c.value.isSome) : p.intent c args amount ≠ .error unbound := by
  unfold Plan.intent
  rcases recipientOf_cases p c args with ⟨e, hrecipient, he⟩ | ⟨recipient, hrecipient, hsome⟩
  . rw [hrecipient]
    intro h
    cases h
    exact he rfl
  . rw [hrecipient]
    dsimp only [bind, Except.bind]
    split
    . exact tokenIntent_ne_unbound _ _
    . next id _ htarget =>
      split
      . exact methodIntent_ne_unbound _ htarget
      . exact pure_ne_unbound _
    . next htarget =>
      obtain ⟨hvalue, hto⟩ := hc htarget
      rw [← hamount] at hvalue
      rw [← hsome] at hto
      obtain ⟨a, rfl⟩ := Option.isSome_iff_exists.mp hvalue
      obtain ⟨a', rfl⟩ := Option.isSome_iff_exists.mp hto
      exact pure_ne_unbound _

theorem eq_of_callPayload {id : Nat} {data : Bytes} {value : Nat} {payload : Payload}
    (h : p.callPayload id data value = .ok payload)
    : ∃ a,
        (p.catalogue.instance? id).bind Instance.deployed? = some a ∧
        payload = { recipient := some a, value, data } := by
  unfold callPayload at h
  split at h
  . next a hdeployed =>
    cases h
    exact ⟨a, hdeployed, rfl⟩
  . cases h

/--
The payload calls a function `transfer` of two inputs on an instance: one of the contract's own, or
else the one that all tokens have.
-/
structure CallsTransfer (p : Plan) (id : Nat) (recipient : Address) (amount : Nat)
    (payload : Payload) : Prop where
  unpaid : payload.value = 0
  called : ∃ a, (p.catalogue.instance? id).bind Instance.deployed? = some a ∧
    payload.recipient = some a
  data : ∃ build f, p.catalogue.buildOf id = .ok build ∧
    f.name = "transfer" ∧
    f.inputs.length = 2 ∧
    (f ∈ build.interface.functions ∨ f = transferFunction) ∧
    f.callData [.address recipient, .uint256 amount] = .ok payload.data

theorem function_of_find {i : Abi.Interface} {method : String} {arity : Nat} {f : Abi.Function}
    (h : i.find method arity = .ok f)
    : f ∈ i.functions ∧ f.name = method ∧ f.inputs.length = arity := by
  unfold Abi.Interface.find at h
  dsimp only at h
  split at h
  . cases h
  . split at h
    . next hfind =>
      cases h
      have hmem := List.mem_of_find?_eq_some hfind
      have harity := List.find?_some hfind
      unfold Abi.Interface.functionsNamed at hmem
      rw [List.mem_filter] at hmem
      exact ⟨hmem.1, by simpa using hmem.2, by simpa using harity⟩
    . cases h

theorem callsTransfer_of_payload {id amount : Nat} {recipient : Address} {payload : Payload}
    (h : p.payload c args sender (.tokens id recipient amount) = .ok payload)
    : p.CallsTransfer id recipient amount payload := by
  obtain ⟨build, hbuild, h⟩ := bind_eq_ok.mp h
  obtain ⟨data, hdata, h⟩ := bind_eq_ok.mp h
  obtain ⟨a, hdeployed, rfl⟩ := eq_of_callPayload h
  refine ⟨rfl, ⟨a, hdeployed, rfl⟩, build, ?_⟩
  split at hdata
  . next f hfind =>
    obtain ⟨hmem, hname, harity⟩ := function_of_find hfind
    exact ⟨f, hbuild, hname, harity, .inl hmem, hdata⟩
  . exact ⟨transferFunction, hbuild, rfl, rfl, .inr rfl, hdata⟩

/--
The payload creates the contract of an instance, with the command's parameters for its constructor.
-/
structure Creates (p : Plan) (c : WriteCommand) (args : List String) (sender : Address) (id : Nat)
    (payload : Payload) : Prop where
  recipient : payload.recipient = none
  data : ∃ build values, p.catalogue.buildOf id = .ok build ∧
    p.finalize c.name c.params args (some sender) = .ok values ∧
    build.Deploys values payload.data

theorem creates_of_payload {id value : Nat} {payload : Payload}
    (h : p.payload c args sender (.deploy id value) = .ok payload)
    : p.Creates c args sender id payload ∧ payload.value = value := by
  obtain ⟨build, hbuild, h⟩ := bind_eq_ok.mp h
  obtain ⟨values, hvalues, h⟩ := bind_eq_ok.mp h
  obtain ⟨data, hdata, h⟩ := bind_eq_ok.mp h
  cases h
  exact ⟨⟨rfl, build, values, hbuild, hvalues, Build.deployData_eq_ok.mp hdata⟩, rfl⟩

theorem calls_of_payload {id value : Nat} {name : String} {payload : Payload}
    (h : p.payload c args sender (.method id name value) = .ok payload)
    : payload.recipient.isSome ∧ payload.value = value := by
  obtain ⟨build, _, h⟩ := bind_eq_ok.mp h
  obtain ⟨values, _, h⟩ := bind_eq_ok.mp h
  obtain ⟨f, _, h⟩ := bind_eq_ok.mp h
  obtain ⟨data, _, h⟩ := bind_eq_ok.mp h
  obtain ⟨a, _, rfl⟩ := eq_of_callPayload h
  exact ⟨rfl, rfl⟩

theorem recipient_of_payload (intent : Intent) {payload : Payload}
    : p.payload c args sender intent = .ok payload →
      match intent with
      | .deploy id _ => payload.recipient = none ∧ (p.catalogue.instance? id).isSome
      | _ => payload.recipient.isSome := by
  intro h
  cases intent with
  | transfer recipient value =>
    cases h
    rfl
  | deploy id value =>
    obtain ⟨⟨hnone, build, _, hbuild, _⟩, _⟩ := creates_of_payload h
    obtain ⟨i, hi, _⟩ := Catalogue.buildOf_eq_ok.mp hbuild
    exact ⟨hnone, Option.isSome_of_eq_some hi⟩
  | tokens id recipient amount =>
    obtain ⟨a, _, hcalled⟩ := (callsTransfer_of_payload h).called
    rw [hcalled]
    rfl
  | method id name value => exact (calls_of_payload h).1

structure Carries (p : Plan) (c : WriteCommand) (args : List String) (amount : Option Amount)
    (payload : Payload) : Prop where
  /-- Tokens are sent by the deployed instance whose symbol is the amount's unit. -/
  tokens : ∀ a, amount = some a → a.isToken = true → ∃ unit id symbol recipient,
    a.denomination = some unit ∧
    (p.catalogue.instance? id).bind Instance.symbol = some symbol ∧
    Text.eqIgnoringAsciiCase unit symbol = true ∧
    p.recipientOf c args = .ok (some recipient) ∧
    p.CallsTransfer id recipient a.value payload
  wei : (∀ a, amount = some a → a.isToken = false) →
    payload.value = (amount.map Amount.value).getD 0
  creates : payload.recipient = none → ∃ id build,
    c.target = some id ∧
    p.isDeployed id = false ∧
    p.catalogue.buildOf id = .ok build ∧
    build.bytecode <+: payload.data
  sends : c.target = none → (∀ a, amount = some a → a.isToken = false) → ∃ recipient,
    p.recipientOf c args = .ok (some recipient) ∧
    payload.recipient = some recipient ∧
    payload.data = []

theorem symbol_of_findSymbol? {catalogue : Catalogue} {unit : String} {id : Nat}
    (h : catalogue.findSymbol? unit = some id)
    : ∃ symbol,
        (catalogue.instance? id).bind Instance.symbol = some symbol ∧
        Text.eqIgnoringAsciiCase unit symbol = true := by
  unfold Catalogue.findSymbol? at h
  obtain ⟨hid, hsymbol, _⟩ := List.findIdx?_eq_some_iff_getElem.mp h
  obtain ⟨symbol, heq, hunit⟩ := (Option.any_eq_true _ _).mp hsymbol
  refine ⟨symbol, ?_, hunit⟩
  unfold Catalogue.instance?
  rw [List.getElem?_eq_getElem hid]
  exact heq

theorem carries_of_wei {amount : Option Amount} {payload : Payload}
    (hwei : ∀ a, amount = some a → a.isToken = false) (hvalue : payload.value = weiOf amount)
    (hcreates : payload.recipient = none → ∃ id build,
      c.target = some id ∧ p.isDeployed id = false ∧ p.catalogue.buildOf id = .ok build ∧
        build.bytecode <+: payload.data)
    (hsends : c.target = none → ∃ recipient,
      p.recipientOf c args = .ok (some recipient) ∧ payload.recipient = some recipient ∧
        payload.data = [])
    : p.Carries c args amount payload where
  tokens a ha htoken := by
    rw [hwei a ha] at htoken
    cases htoken
  wei _ := by rw [hvalue, weiOf_eq hwei]
  creates := hcreates
  sends hnone _ := hsends hnone

theorem carries_of_payload {amount : Option Amount} {intent : Intent} {payload : Payload}
    (hmeans : p.Means c args amount intent) (h : p.payload c args sender intent = .ok payload)
    : p.Carries c args amount payload := by
  -- The third intent alone is about an amount that counts tokens.
  cases hmeans with
  | @transfer a recipient htarget hwei hrecipient =>
    cases h
    have hwei' : ∀ a', some a = some a' → a'.isToken = false := by
      rintro a' ⟨⟩
      exact hwei
    refine carries_of_wei hwei' (weiOf_eq hwei').symm ?_ fun _ => ⟨recipient, hrecipient, rfl, rfl⟩
    intro hnone
    cases hnone
  | @deploy _ id _ htarget hundeployed hwei =>
    obtain ⟨⟨_, build, _, hbuild, _, hdata⟩, hvalue⟩ := creates_of_payload h
    refine carries_of_wei hwei hvalue
      (fun _ => ⟨id, build, htarget, hundeployed, hbuild, hdata.isPrefix⟩) ?_
    intro hnone
    rw [htarget] at hnone
    cases hnone
  | @tokens a id recipient htoken hsymbol _ hrecipient =>
    have hcalls := callsTransfer_of_payload h
    have hno : ¬ ∀ a', some a = some a' → a'.isToken = false := by
      intro hwei
      rw [hwei a rfl] at htoken
      cases htoken
    refine ⟨?_, fun hwei => absurd hwei hno, ?_, fun _ hwei => absurd hwei hno⟩
    . rintro a' ⟨⟩ _
      obtain ⟨unit, hunit⟩ := Amount.exists_of_isToken htoken
      rw [hunit] at hsymbol
      obtain ⟨symbol, hid, heq⟩ := symbol_of_findSymbol? hsymbol
      exact ⟨unit, id, symbol, recipient, hunit, hid, heq, hrecipient, hcalls⟩
    . intro hnone
      obtain ⟨_, _, hcalled⟩ := hcalls.called
      rw [hnone] at hcalled
      cases hcalled
  | @method _ id name _ htarget _ _ hwei =>
    obtain ⟨hsome, hvalue⟩ := calls_of_payload h
    refine carries_of_wei hwei hvalue ?_ ?_
    . intro hnone
      rw [hnone] at hsome
      cases hsome
    . intro hnone
      rw [htarget] at hnone
      cases hnone

end Plan

end Runbook
