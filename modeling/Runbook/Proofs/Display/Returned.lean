import Runbook.Abi.Call
import Runbook.Cli.Output
import Runbook.Proofs.Abi.Argument
import Runbook.Proofs.Display.Pretty
import Runbook.Proofs.Engine.Turns

/-!
This module contains what the values that a contract returns to a read are shown as: the texts of
integers, addresses and truth values as they are decoded, bytes and strings only if they are not
taken for something else.
-/

namespace Runbook

namespace Abi.AbiValue

mutual

def shown : AbiValue → Json
  | bool b => .bool b
  | address a => .string a.text
  | function bs | bytes bs | fixedBytes bs => .string (shownBytes bs)
  | string s => .string (prettyText s)
  | uint n => .string (toString n)
  | int n => .string (toString n)
  | array items | fixedArray items | tuple items => .array (shownItems items)

def shownItems : List AbiValue → List Json
  | [] => []
  | v :: vs => shown v :: shownItems vs

end

mutual

def Keeps : AbiValue → Prop
  | bool _ | address _ | uint _ | int _ => True
  | function bs | bytes bs | fixedBytes bs => readsAsQuantity bs = false
  | string s => KeepsText s
  | array items | fixedArray items | tuple items => KeepsItems items

def KeepsItems : List AbiValue → Prop
  | [] => True
  | v :: vs => Keeps v ∧ KeepsItems vs

end

theorem shownBytes_address (a : Address) : shownBytes a.bytes = a.text := by
  refine (shownBytes_eq_self a.bytes).mpr ?_
  have hlength := a.length_bytes
  cases hbytes : a.bytes with
  | nil => rfl
  | cons b bs =>
    rw [hbytes, List.length_cons] at hlength
    simp [readsAsQuantity, hlength]

mutual

theorem prettify_json (v : AbiValue) : v.json.prettify = v.shown := by
  cases v with
  | bool b => rfl
  | address a =>
    have haddress := (prettyText_hexPrefixed a.bytes).trans (shownBytes_address a)
    exact congrArg Json.string haddress
  | function bs | bytes bs | fixedBytes bs => exact congrArg Json.string (prettyText_hexPrefixed bs)
  | string s => rfl
  | uint n => exact congrArg Json.string (prettyText_toString n)
  | int n => exact congrArg Json.string (prettyText_toString n)
  | array items | fixedArray items | tuple items =>
    exact congrArg Json.array (prettify_jsonItems items)

theorem prettify_jsonItems (vs : List AbiValue)
    : Json.prettifyItems (jsonItems vs) = shownItems vs := by
  cases vs with
  | nil => rfl
  | cons v vs => exact congrArg₂ List.cons (prettify_json v) (prettify_jsonItems vs)

end

theorem string_eq_string {s s' : String} : Json.string s = .string s' ↔ s = s' := by
  rw [Json.string.injEq]

theorem array_eq_array {vs vs' : List Json} : Json.array vs = .array vs' ↔ vs = vs' := by
  rw [Json.array.injEq]

mutual

theorem shown_eq_json (v : AbiValue) : v.shown = v.json ↔ v.Keeps := by
  cases v with
  | bool | address | uint | int => exact iff_of_true rfl trivial
  | function bs | bytes bs | fixedBytes bs => exact string_eq_string.trans (shownBytes_eq_self bs)
  | string s => exact string_eq_string.trans prettyText_eq_self
  | array items | fixedArray items | tuple items =>
    exact array_eq_array.trans (shownItems_eq_jsonItems items)

theorem shownItems_eq_jsonItems (vs : List AbiValue)
    : shownItems vs = jsonItems vs ↔ KeepsItems vs := by
  cases vs with
  | nil => exact iff_of_true rfl trivial
  | cons v vs =>
    have hv := shown_eq_json v
    have hvs := shownItems_eq_jsonItems vs
    rw [shownItems, jsonItems, KeepsItems, List.cons.injEq, hv, hvs]

end

theorem keepsItems_iff (vs : List AbiValue) : KeepsItems vs ↔ ∀ v ∈ vs, v.Keeps := by
  induction vs with
  | nil => simp [KeepsItems]
  | cons v vs ih => rw [KeepsItems, ih, List.forall_mem_cons]

theorem jsonItems_eq_map (vs : List AbiValue) : jsonItems vs = vs.map json := by
  induction vs with
  | nil => rfl
  | cons v vs ih => rw [jsonItems, ih, List.map_cons]

end Abi.AbiValue

namespace Abi

def Function.returned? (f : Function) (data : Bytes) : Option (List AbiValue) :=
  (Parameter.resolveAll? f.outputs).bind (decode? · data)

def jsonReturned : List AbiValue → Json
  | [v] => v.json
  | vs => .array (AbiValue.jsonItems vs)

def shownReturned : List AbiValue → Json
  | [v] => v.shown
  | vs => .array (AbiValue.shownItems vs)

theorem prettify_jsonReturned (vs : List AbiValue)
    : (jsonReturned vs).prettify = shownReturned vs := by
  unfold jsonReturned shownReturned
  split
  . exact AbiValue.prettify_json _
  . exact congrArg Json.array (AbiValue.prettify_jsonItems vs)

theorem shownReturned_eq_json (vs : List AbiValue)
    : shownReturned vs = jsonReturned vs ↔ ∀ v ∈ vs, v.Keeps := by
  unfold jsonReturned shownReturned
  split
  . next v =>
    rw [List.forall_mem_singleton]
    exact v.shown_eq_json
  . rw [AbiValue.array_eq_array, AbiValue.shownItems_eq_jsonItems, AbiValue.keepsItems_iff]

theorem decodeOutputs_returned {f : Function} {data : Bytes} {vs : List AbiValue}
    (h : f.returned? data = some vs) : f.decodeOutputs data = .ok (jsonReturned vs) := by
  unfold Function.returned? at h
  unfold Function.decodeOutputs
  rw [h]
  split
  . next heq =>
    cases heq
    rfl
  . next vs' hsingle heq =>
    cases heq
    unfold jsonReturned
    split
    . next v => exact absurd rfl (hsingle v)
    . rw [AbiValue.jsonItems_eq_map]
      rfl
  . next heq => cases heq

end Abi

theorem Outcome.field?_result {o : Outcome} {j : Json} (h : o.result = .ok j)
    : o.line.field? "result" = some j.prettify := by
  unfold Outcome.line
  rw [h]
  cases o.wallet with
  | none => rfl
  | some w => rfl

namespace Session

variable {ω : Type} {host : Host ω} {σ σ' : Session ω} {j : Json}

/--
A read that succeeds shows what the values of its answer are shown as, which it got when its wallet
had its turn. This is the answer as it was decoded exactly if no bytes in it read as a quantity and
all its strings are shown as they are.
-/
theorem line_runRead {c : ReadCommand} {args : List String} {earlier later : List Outcome}
    {o : Outcome} (ho : (runRead host c args σ).1 = earlier ++ o :: later) (hj : o.result = .ok j)
    : ∃ (ws : List (String × Address)) (σ₁ : Session ω) (values : List Value) (call : ViewCall)
        (f : Abi.Function) (data : Bytes),
        Turns host c.name (fun a => σ.plan.readQuestion c args (some a)) ws σ earlier σ₁ ∧
        σ.plan.finalize c.name c.params args (o.wallet.map Prod.snd) = .ok values ∧
        σ.plan.viewCall c.target c.method (o.wallet.map Prod.snd) values = .ok (call, f) ∧
        (host.node.ask (.view call) σ₁.trace.world).1 = .ok data ∧
        f.decodeOutputs data = .ok j ∧
        ∀ vs, f.returned? data = some vs →
          o.line.field? "result" = some (Abi.shownReturned vs) ∧
          (o.line.field? "result" = some j ↔ ∀ v ∈ vs, v.Keeps) := by
  cases hdeployed : σ.plan.isDeployed c.target with
  | false =>
    obtain ⟨note, hrun⟩ := runRead_of_undeployed host args hdeployed
    rw [hrun] at ho
    obtain ⟨_, rfl⟩ := eq_of_singleton_eq_append ho
    cases hj
  | true =>
    rw [runRead_of_isDeployed host args hdeployed] at ho
    obtain ⟨_, hposed⟩ := @outcomes_forEachWallet _ host c.name σ _ _
      (fun sender _ => run_readAs_of_plan host c args sender) c.wallets
    obtain ⟨ws, σ₁, hturns, hresult⟩ := hposed earlier o later ho
    obtain ⟨q, hq, hanswered⟩ := pose_eq_ok (hresult.symm.trans hj)
    obtain ⟨values, hvalues, hq⟩ := bind_eq_ok.mp hq
    obtain ⟨⟨call, f⟩, hcall, hq⟩ := bind_eq_ok.mp hq
    cases hq
    obtain ⟨data, hanswer, hdecode⟩ := bind_eq_ok.mp hanswered
    refine ⟨ws, σ₁, values, call, f, data, hturns, hvalues, hcall, hanswer, hdecode, ?_⟩
    intro vs hvs
    cases hdecode.symm.trans (Abi.decodeOutputs_returned hvs)
    rw [Outcome.field?_result hj, Abi.prettify_jsonReturned]
    exact ⟨rfl, Option.some_inj.trans (Abi.shownReturned_eq_json vs)⟩

def idFunction : Abi.Function where
  name := "id"
  inputs := []
  outputs := [⟨"", "bytes4", []⟩]

def idBytes : Bytes :=
  [0xa9, 0x05, 0x9c, 0xbb]

def idData : Bytes :=
  idBytes ++ List.replicate 28 0

def idHost : Host Unit where
  node :=
    { ask := fun r w =>
        match r with
        | .view _ => (.ok idData, w)
        | _ => (.error (.ofNote .network "no answer"), w) }
  keyring :=
    { register := fun _ _ w => w
      unregister := fun _ _ w => w
      unlock := fun _ _ w => (.unregistered, w) }
  policy := {}

def idRead : ReadCommand where
  name := "id"
  description := none
  wallets := []
  method := "id"
  params := []
  target := 0

def idSession : Session Unit where
  plan :=
    { catalogue :=
        { builds :=
            [("Token", { interface := { constructor? := none, functions := [idFunction] }
                         bytecode := [] })]
          instances :=
            [{ name := some "token"
               contract := "Token"
               address := some ⟨List.replicate 20 0xbb, rfl⟩ }] } }
  trace := { world := () }

theorem returned?_idFunction : idFunction.returned? idData = some [.fixedBytes idBytes] := by
  have hresolve : Abi.Parameter.resolveAll? idFunction.outputs = some [.fixedBytes 4] := by
    rw [idFunction, Abi.Parameter.resolveAll?,
      Abi.Parameter.resolve?_of_elementary? (by decide) rfl, Abi.Parameter.resolveAll?]
    rfl
  rw [Abi.Function.returned?, hresolve]
  rfl

theorem line_runRead_id
    : ∃ o ∈ (runRead idHost idRead [] idSession).1,
        o.result = .ok (.string "0xa9059cbb") ∧
        o.line.field? "result" = some (.string "2835717307") ∧
        o.line.field? "result" ≠ some (.string "0xa9059cbb") := by
  have hdecode : idFunction.decodeOutputs idData = .ok (.string "0xa9059cbb") :=
    Abi.decodeOutputs_returned returned?_idFunction
  have hrun : (runRead idHost idRead [] idSession).1
      = [] ++ { command := "id", result := .ok (.string "0xa9059cbb") } :: [] := by
    rw [← hdecode]
    rfl
  obtain ⟨ws, σ₁, values, call, f, data, _, hvalues, hcall, hanswer, _, hshown⟩ :=
    line_runRead hrun rfl
  cases hanswer
  cases hvalues
  obtain ⟨call', hview⟩
      : ∃ call', idSession.plan.viewCall 0 "id" none [] = .ok (call', idFunction) := ⟨_, rfl⟩
  cases hview.symm.trans hcall
  obtain ⟨hline, hkeeps⟩ := hshown _ returned?_idFunction
  refine ⟨_, by rw [hrun]; exact List.mem_cons_self .., rfl, hline.trans rfl, fun hself => ?_⟩
  have hquantity : readsAsQuantity idBytes = false := hkeeps.mp hself _ (List.mem_singleton.mpr rfl)
  exact absurd hquantity (by decide)

end Session

end Runbook
