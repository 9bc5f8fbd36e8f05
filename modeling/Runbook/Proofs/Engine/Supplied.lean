import Runbook.Proofs.Amount.Spliced
import Runbook.Proofs.Engine.Target

/-!
This module contains how many arguments are enough: those that cover the indices of a command leave
it none to miss, and those that cover the indices of a target do so for steps that pass them on.
-/

namespace Runbook

open Result

variable {ω : Type}

section Commands

theorem Wallets.not_lacks_addressOf (ws : Wallets) (name : String)
    : ¬ LacksArgument (ws.addressOf name) := by
  unfold addressOf
  split
  . exact not_lacks_ok _
  . exact not_lacks_fail (.append (.append (by decide) _) _)

theorem Recipient.lacks_resolve_iff (ws : Wallets) (args : List String) (r : Recipient)
    : LacksArgument (r.resolve ws args) ↔ ∃ text, r = .template text ∧ Unsupplied args text := by
  cases r with
  | address a => exact iff_of_false (not_lacks_ok a) (by rintro ⟨text, h, _⟩; cases h)
  | wallet name =>
    exact iff_of_false (ws.not_lacks_addressOf name) (by rintro ⟨text, h, _⟩; cases h)
  | template text =>
    have htext : (∃ text', template text = template text' ∧ Unsupplied args text') ↔
        ∃ index, substituteArgs text args = .error index := by
      simp only [template.injEq, exists_eq_left', exists_missing_iff]
    rw [htext]
    unfold resolve
    dsimp only
    cases hsub : substituteArgs text args with
    | error index =>
      refine iff_of_true (lacks_fail ?_) ⟨index, rfl⟩
      have hmark : missingMark.toList <+: "insufficient arguments: recipient needs $".toList := by
        decide
      simp only [String.toList_append, List.append_assoc]
      exact hmark.trans (List.prefix_append _ _)
    | ok filled =>
      refine iff_of_false ?_ (by rintro ⟨index, h⟩; cases h)
      dsimp only
      split
      . exact ws.not_lacks_addressOf _
      . split
        . exact not_lacks_ok _
        . exact not_lacks_fail (.append (.append (by decide) _) _)

theorem Plan.lacks_recipientOf_iff (p : Plan) (c : WriteCommand) (args : List String)
    : LacksArgument (p.recipientOf c args) ↔
      ∃ text, c.recipient = some (.template text) ∧ Unsupplied args text := by
  unfold recipientOf
  cases c.recipient with
  | none => exact iff_of_false (not_lacks_ok _) (by rintro ⟨text, h, _⟩; cases h)
  | some r =>
    dsimp only
    rw [lacks_map_iff, Recipient.lacks_resolve_iff]
    simp only [Option.some_inj]

theorem Session.lacks_amountOf_iff (p : Plan) (c : WriteCommand) (args : List String)
    : LacksArgument (amountOf c args p) ↔
      ∃ text spliced, c.value = some text ∧
        substituteBalances p.wallets.directory text = .ok spliced ∧ Unsupplied args spliced := by
  unfold amountOf
  cases c.value with
  | none => exact iff_of_false (not_lacks_ok _) (by rintro ⟨text, spliced, h, _⟩; cases h)
  | some text =>
    dsimp only
    rw [lacks_map_iff, Amount.lacks_parse_iff]
    simp only [Option.some_inj, exists_and_left, exists_eq_left']

end Commands

def Slot.Readable (s : Slot) : Prop :=
  ∀ text, s.decl.template? = some text → Runbook.Readable text

theorem Slot.unsupplied_iff {s : Slot} {args : List String}
    (hargs : ∀ i ∈ s.argIndices, i < args.length)
    : s.Unsupplied args ↔ ¬ s.Readable ∧ args.length < indexBound := by
  unfold Slot.Unsupplied Slot.Readable
  cases htext : s.decl.template? with
  | none => simp
  | some text =>
    rw [argIndices_of_template? htext] at hargs
    simp only [Option.some_inj, exists_eq_left', forall_eq']
    exact Runbook.unsupplied_iff hargs

namespace Plan

variable {p : Plan} {d : Document} {args : List String} {name : String}

/--
Whatever the parameters of a command come to with these arguments, one of them fails for a missing
argument exactly if its template has a token that names no index.
-/
structure ParamsSupplied (p : Plan) (command : String) (params : List Slot) (args : List String) :
    Prop where
  slot : ∀ s ∈ params, ∀ sender,
    LacksArgument (s.finalize { command, args, wallets := p.wallets.directory, sender }) ↔
      ¬ s.Readable ∧ args.length < indexBound
  params : ∀ sender, LacksArgument (p.finalize command params args sender) →
    ∃ s ∈ params, ¬ s.Readable

theorem paramsSupplied {ds : List ParamDecl} {command : String} {params : List Slot}
    (hparams : List.Forall₂ Slot.Checked ds params)
    (hargs : ∀ i ∈ params.flatMap Slot.argIndices, i < args.length)
    : p.ParamsSupplied command params args := by
  have hslot : ∀ s ∈ params, ∀ sender,
      LacksArgument (s.finalize { command, args, wallets := p.wallets.directory, sender }) ↔
        ¬ s.Readable ∧ args.length < indexBound := by
    intro s hs sender
    rw [Slot.lacks_finalize_iff (Slot.exists_resolve_of_mem hparams hs)]
    exact Slot.unsupplied_iff fun i hi => hargs i (List.mem_flatMap.mpr ⟨s, hs, hi⟩)
  refine ⟨hslot, fun sender hlacks => ?_⟩
  by_contra hreadable
  refine not_lacks_mapM (fun s hs hlacks => ?_) hlacks
  exact hreadable ⟨s, hs, ((hslot s hs sender).mp hlacks).1⟩

/--
What a write comes to with these arguments. Its value is looked through for tokens once balances are
put into it, and a balance right behind a token makes another one of it.
-/
structure WriteSupplied (p : Plan) (c : WriteCommand) (args : List String) : Prop where
  params : p.ParamsSupplied c.name c.params args
  amount : LacksArgument (Session.amountOf c args p) ↔
    ∃ text spliced, c.value = some text ∧
      substituteBalances p.wallets.directory text = .ok spliced ∧ Unsupplied args spliced
  value : ∀ text, c.value = some text → Readable text → Apart text →
    ¬ LacksArgument (Session.amountOf c args p)
  recipient : LacksArgument (p.recipientOf c args) ↔
    (∃ text, c.recipient = some (.template text) ∧ ¬ Readable text) ∧ args.length < indexBound

theorem writeSupplied {c : WriteCommand} {ds : List ParamDecl}
    (hparams : List.Forall₂ Slot.Checked ds c.params)
    (hargs : ∀ i ∈ c.argIndices, i < args.length) : p.WriteSupplied c args := by
  unfold WriteCommand.argIndices at hargs
  simp only [List.mem_append, or_imp, forall_and] at hargs
  obtain ⟨⟨hargs, hvalue⟩, hrecipient⟩ := hargs
  refine ⟨paramsSupplied hparams hargs, Session.lacks_amountOf_iff p c args, ?_, ?_⟩
  . intro text htext hreadable hapart hlacks
    rw [htext] at hvalue
    obtain ⟨_, spliced, hc, hspliced, digits, hdigits, hplace⟩ :=
      (Session.lacks_amountOf_iff p c args).mp hlacks
    cases htext.symm.trans hc
    rw [argTokens_of_substituteBalances hspliced hapart] at hdigits
    exact hreadable.not_unsupplied hvalue ⟨digits, hdigits, hplace⟩
  . rw [lacks_recipientOf_iff]
    cases hc : c.recipient with
    | none => simp
    | some r =>
      rw [hc] at hrecipient
      cases r with
      | template text =>
        simp only [Option.some_inj, Recipient.template.injEq, exists_eq_left']
        exact unsupplied_iff hrecipient
      | _ => simp

/--
Arguments that cover the indices of a command are enough for it.
-/
structure Supplied (p : Plan) (args : List String) : Prop where
  call : ∀ name c, p.calls.find? name = some c → (∀ i ∈ c.argIndices, i < args.length) →
    p.ParamsSupplied c.name c.params args
  read : ∀ name c, p.reads.find? name = some c → (∀ i ∈ c.argIndices, i < args.length) →
    p.ParamsSupplied c.name c.params args
  write : ∀ name c, p.writes.find? name = some c → (∀ i ∈ c.argIndices, i < args.length) →
    p.WriteSupplied c args

theorem Sound.supplied (h : p.Sound d) (args : List String) : p.Supplied args where
  call _ _ hc hargs := by
    obtain ⟨_, _, hchecked⟩ := h.calls.find? hc
    exact paramsSupplied hchecked.params hargs
  read _ _ hc hargs := by
    obtain ⟨_, _, hchecked⟩ := h.reads.find? hc
    exact paramsSupplied hchecked.params hargs
  write _ _ hc hargs := by
    obtain ⟨_, _, hchecked⟩ := h.writes.find? hc
    exact writeSupplied hchecked.params hargs

end Plan

namespace Session

variable {σ : Session ω}

/--
Whenever a command of a checked playbook runs, arguments that cover its indices are missed by none
of its texts, but for those that have tokens which name no index, and a value with a balance right
behind a token.
-/
theorem reachable_supplied {p : Plan} (hσ : σ.Reachable) (hp : σ.plan.Like p) (args : List String)
    : p.Supplied args := by
  obtain ⟨d, hsound⟩ := hσ.sound
  exact (hp.sound hsound).supplied args

end Session

section Account

def reference (text : String) : ParamDecl :=
  .typed { type := some "string", value := none, reference := some text }

def accountDocument : Document where
  wallets := some []
  calls := some [("account",
    { method := "eth_getBalance", params := [reference "$0", reference "$1"] })]
  targets := some [("both", [.short "account"]),
    ("short", [.detailed "account" [.string "0x0"] false])]

def accountCommand : CallCommand where
  name := "account"
  description := none
  wallets := []
  method := "eth_getBalance"
  params :=
    [⟨reference "$0", .deferred (.template "$0" .string) (.missingArgument 0 0)⟩,
      ⟨reference "$1", .deferred (.template "$1" .string) (.missingArgument 1 0)⟩]

def accountPlan : Plan where
  calls := [("account", accountCommand)]
  targets := [("both", ⟨"both", [⟨"account", .call, false, none⟩]⟩),
    ("short", ⟨"short", [⟨"account", .call, false, some ["0x0"]⟩]⟩)]

theorem resolve_reference (scope : Scope) {text : String}
    (hwallet : isWalletRef (Text.trim text) = false)
    (hindices : (argIndices (Text.trim text)).isEmpty = false)
    : (reference text).resolve scope = .ok (resolveTemplate scope .string (Text.trim text)) := by
  exact ParamDecl.resolve_typed_eq_ok.mpr ⟨.string, rfl, .template rfl rfl hwallet hindices⟩

theorem resolve_first (scope : Scope)
    : (reference "$0").resolve scope = .ok (resolveTemplate scope .string "$0") :=
  resolve_reference scope (by decide) (by rw [argIndices_eq]; decide)

theorem resolve_second (scope : Scope)
    : (reference "$1").resolve scope = .ok (resolveTemplate scope .string "$1") :=
  resolve_reference scope (by decide) (by rw [argIndices_eq]; decide)

theorem substituteArgs_first (args : List String)
    : substituteArgs "$0" args = match args[0]? with | some a => .ok a | none => .error 0 :=
  substituteArgs_token (by decide) args

theorem substituteArgs_second (args : List String)
    : substituteArgs "$1" args = match args[1]? with | some a => .ok a | none => .error 1 :=
  substituteArgs_token (by decide) args

theorem ofDecl_account
    : CallCommand.ofDecl [] [] "account"
        { method := "eth_getBalance", params := [reference "$0", reference "$1"] }
        = .ok accountCommand := by
  have hfirst : (reference "$0").resolve (declScope [] [] "account")
      = .ok (.deferred (.template "$0" .string) (.missingArgument 0 0)) := by
    rw [resolve_first]
    unfold resolveTemplate declScope
    rw [substituteArgs_first]
    rfl
  have hsecond : (reference "$1").resolve (declScope [] [] "account")
      = .ok (.deferred (.template "$1" .string) (.missingArgument 1 0)) := by
    rw [resolve_second]
    unfold resolveTemplate declScope
    rw [substituteArgs_second]
    rfl
  have hparams : resolveParams (declScope [] [] "account") 0 [reference "$0", reference "$1"]
      = .ok accountCommand.params := by
    unfold resolveParams
    rw [hfirst]
    unfold resolveParams
    rw [hsecond]
    rfl
  unfold CallCommand.ofDecl
  refine bind_eq_ok.mpr ⟨(), rfl, ?_⟩
  refine bind_eq_ok.mpr ⟨[], rfl, ?_⟩
  rw [if_neg (by decide)]
  exact bind_eq_ok.mpr ⟨_, hparams, rfl⟩

theorem ofDocument_account
    : (Plan.ofDocument Session.silentServices accountDocument {}).run { world := () }
        = (.ok (accountPlan, none), { world := () }) := by
  have hcalls : Plan.addCalls [] {} {} (accountDocument.calls.getD [])
      = .ok ({ calls := [("account", accountCommand)] }, ⟨[("account", "CALL")]⟩) := by
    unfold accountDocument Plan.addCalls
    dsimp only [Option.getD_some]
    refine bind_eq_ok.mpr ⟨⟨[("account", "CALL")]⟩, rfl, ?_⟩
    refine bind_eq_ok.mpr ⟨accountCommand, ?_, rfl⟩
    rw [ofDecl_account]
    rfl
  exact Plan.run_ofDocument rfl rfl rfl rfl hcalls rfl rfl rfl

theorem argIndices_account : accountCommand.argIndices = [0, 1] := by
  have hfirst : argIndices "$0" = [0] := by
    rw [argIndices_eq]
    decide
  have hsecond : argIndices "$1" = [1] := by
    rw [argIndices_eq]
    decide
  have hslots : accountCommand.argIndices = argIndices "$0" ++ (argIndices "$1" ++ []) := rfl
  rw [hslots, hfirst, hsecond]
  rfl

theorem readable_account : ∀ s ∈ accountCommand.params, s.Readable := by
  have hfirst : Readable "$0" := by
    unfold Readable
    decide
  have hsecond : Readable "$1" := by
    unfold Readable
    decide
  intro s hs text htext
  simp only [accountCommand, List.mem_cons, List.not_mem_nil, or_false] at hs
  rcases hs with rfl | rfl
  . cases htext
    exact hfirst
  . cases htext
    exact hsecond

theorem supplied_account
    : ∃ σ : Session Unit,
        σ.Reachable ∧
        σ.plan.calls.find? "account" = some accountCommand ∧
        (∀ i ∈ accountCommand.argIndices, i < ["0x0", "latest"].length) ∧
        ∀ sender, ¬ LacksArgument
          (σ.plan.finalize "account" accountCommand.params ["0x0", "latest"] sender) := by
  have hσ : Session.Reachable { plan := accountPlan, trace := { world := () } } :=
    .start ofDocument_account _
  have hargs : ∀ i ∈ accountCommand.argIndices, i < ["0x0", "latest"].length := by
    rw [argIndices_account]
    decide
  have hparams := (Session.reachable_supplied hσ (.refl _) ["0x0", "latest"]).call
    "account" accountCommand rfl hargs
  refine ⟨_, hσ, rfl, hargs, fun sender hlacks => ?_⟩
  obtain ⟨s, hs, hreadable⟩ := hparams.params sender hlacks
  exact hreadable (readable_account s hs)

end Account

section Targets

theorem arity_le_iff {indices : List Nat} (h : ∀ i ∈ indices, i + 1 < indexBound) {n : Nat}
    : arity indices ≤ n ↔ ∀ i ∈ indices, i < n := by
  unfold arity
  cases hmax : indices.max? with
  | none =>
    rw [List.max?_eq_none_iff] at hmax
    simp [hmax]
  | some index =>
    obtain ⟨hmem, hle⟩ := List.max?_eq_some_iff.mp hmax
    dsimp only
    rw [Nat.mod_eq_of_lt (h index hmem)]
    exact ⟨fun hn i hi => (Nat.lt_succ_of_le (hle i hi)).trans_le hn, fun hn => hn index hmem⟩

namespace Plan

variable {p : Plan} {d : Document} {args : List String} {name : String}

/--
All tokens in the texts of a command name an index, and no balance is put right behind one.
-/
structure Legible (p : Plan) (name : String) : Prop where
  call : ∀ c, p.calls.find? name = some c → ∀ s ∈ c.params, s.Readable
  read : ∀ c, p.reads.find? name = some c → ∀ s ∈ c.params, s.Readable
  write : ∀ c, p.writes.find? name = some c →
    (∀ s ∈ c.params, s.Readable) ∧
    (∀ text, c.value = some text → Readable text ∧ Apart text) ∧
    ∀ text, c.recipient = some (.template text) → Readable text

/--
With these arguments, nothing that a command needs fails for a missing one.
-/
structure Spares (p : Plan) (name : String) (args : List String) : Prop where
  call : ∀ c sender, p.calls.find? name = some c →
    ¬ LacksArgument (p.finalize c.name c.params args sender)
  read : ∀ c sender, p.reads.find? name = some c →
    ¬ LacksArgument (p.finalize c.name c.params args sender)
  write : ∀ c sender, p.writes.find? name = some c →
    ¬ LacksArgument (p.finalize c.name c.params args sender) ∧
    ¬ LacksArgument (Session.amountOf c args p) ∧
    ¬ LacksArgument (p.recipientOf c args)

theorem ParamsSupplied.not_lacks {command : String} {params : List Slot}
    (h : p.ParamsSupplied command params args) (hreadable : ∀ s ∈ params, s.Readable)
    (sender : Option Address) : ¬ LacksArgument (p.finalize command params args sender) := by
  intro hlacks
  obtain ⟨s, hs, hnot⟩ := h.params sender hlacks
  exact hnot (hreadable s hs)

theorem WriteSupplied.not_lacks_amount {c : WriteCommand} (h : p.WriteSupplied c args)
    (hvalue : ∀ text, c.value = some text → Readable text ∧ Apart text)
    : ¬ LacksArgument (Session.amountOf c args p) := by
  intro hlacks
  obtain ⟨text, _, htext, _⟩ := h.amount.mp hlacks
  obtain ⟨hreadable, hapart⟩ := hvalue text htext
  exact h.value text htext hreadable hapart hlacks

theorem WriteSupplied.not_lacks_recipient {c : WriteCommand} (h : p.WriteSupplied c args)
    (hrecipient : ∀ text, c.recipient = some (.template text) → Readable text)
    : ¬ LacksArgument (p.recipientOf c args) := by
  intro hlacks
  obtain ⟨⟨text, htext, hnot⟩, _⟩ := h.recipient.mp hlacks
  exact hnot (hrecipient text htext)

theorem Sound.spares (h : p.Sound d) (hlegible : p.Legible name)
    (hargs : ∀ i ∈ p.commandIndices name, i < args.length) : p.Spares name args where
  call c sender hc := by
    rw [commandIndices_of_call hc] at hargs
    exact ((h.supplied args).call name c hc hargs).not_lacks (hlegible.call c hc) sender
  read c sender hc := by
    rw [h.distinct.commandIndices_of_read hc] at hargs
    exact ((h.supplied args).read name c hc hargs).not_lacks (hlegible.read c hc) sender
  write c sender hc := by
    rw [h.distinct.commandIndices_of_write hc] at hargs
    have hsupplied := (h.supplied args).write name c hc hargs
    obtain ⟨hparams, hvalue, hrecipient⟩ := hlegible.write c hc
    exact ⟨hsupplied.params.not_lacks hparams sender, hsupplied.not_lacks_amount hvalue,
      hsupplied.not_lacks_recipient hrecipient⟩

end Plan

theorem Step.argsFor_own {s : Step} {templates args : List String} (h : s.args = some templates)
    (hreadable : ∀ template ∈ templates, Readable template)
    (hargs : ∀ template ∈ templates, ∀ i ∈ Runbook.argIndices template, i < args.length)
    : ∃ stepArgs, s.argsFor args = .ok stepArgs ∧ stepArgs.length = templates.length := by
  obtain ⟨stepArgs, hmap⟩ : ∃ stepArgs, s.argsFor args = .ok stepArgs := by
    unfold argsFor
    rw [h]
    dsimp only
    rw [exists_mapM_eq_ok_iff]
    intro template hmem
    obtain ⟨text, htext⟩ : ∃ text, substituteArgs template args = .ok text := by
      rw [exists_substituteArgs_iff]
      intro digits hdigits
      by_contra hplace
      exact (hreadable template hmem).not_unsupplied (hargs template hmem)
        ⟨digits, hdigits, not_lt.mp hplace⟩
    rw [htext]
    exact ⟨text, rfl⟩
  refine ⟨stepArgs, hmap, ?_⟩
  unfold argsFor at hmap
  rw [h] at hmap
  exact (mapM_eq_ok_iff.mp hmap).length_eq.symm

namespace Session

variable {σ : Session ω} {name : String} {t : Target} {args : List String}

/--
With as many arguments as a target takes, a step that passes them on has enough for its command, and
one that states its own has as many as it states. A step with as many arguments as its command takes
misses none of them.
-/
theorem target_supplied (hσ : σ.Reachable) (ht : σ.plan.targets.find? name = some t)
    (harity : σ.plan.arity? name = some args.length)
    (hbound : ∀ i ∈ t.argIndices σ.plan.commandIndices, i + 1 < indexBound)
    : ∀ s ∈ t.steps, ∃ n,
        σ.plan.arity? s.command = some n ∧
        (s.args = none → s.argsFor args = .ok args ∧ n ≤ args.length) ∧
        (∀ templates, s.args = some templates → (∀ template ∈ templates, Readable template) →
          ∃ stepArgs, s.argsFor args = .ok stepArgs ∧ stepArgs.length = templates.length) ∧
        ∀ p stepArgs, σ.plan.Like p → s.argsFor args = .ok stepArgs → n ≤ stepArgs.length →
          (∀ i ∈ p.commandIndices s.command, i + 1 < indexBound) → p.Legible s.command →
          p.Spares s.command stepArgs := by
  intro s hs
  obtain ⟨d, hsound⟩ := hσ.sound
  have hkind := ((hsound.targetsFit name t ht).steps s hs).kind
  have hsteps : ∀ i ∈ s.argIndices σ.plan.commandIndices, i ∈ t.argIndices σ.plan.commandIndices :=
    fun i hi => List.mem_flatMap.mpr ⟨s, hs, hi⟩
  have hcovered : ∀ i ∈ t.argIndices σ.plan.commandIndices, i < args.length := by
    unfold Plan.arity? at harity
    rw [ht] at harity
    exact (arity_le_iff hbound).mp (Option.some.inj harity).le
  -- A step passes on the arguments of its target, or those of its own that the target's arguments
  -- cover.
  refine ⟨_, hsound.distinct.arity?_of_kind? hkind, ?_, ?_, ?_⟩
  . intro hnone
    have hindices : s.argIndices σ.plan.commandIndices = σ.plan.commandIndices s.command := by
      unfold Step.argIndices
      rw [hnone]
    rw [hindices] at hsteps
    refine ⟨?_, (arity_le_iff fun i hi => hbound i (hsteps i hi)).mpr ?_⟩
    . unfold Step.argsFor
      rw [hnone]
      rfl
    . exact fun i hi => hcovered i (hsteps i hi)
  . intro templates hsome hreadable
    have hindices : s.argIndices σ.plan.commandIndices = templates.flatMap argIndices := by
      unfold Step.argIndices
      rw [hsome]
    rw [hindices] at hsteps
    exact Step.argsFor_own hsome hreadable fun template htemplate i hi =>
      hcovered i (hsteps i (List.mem_flatMap.mpr ⟨template, htemplate, hi⟩))
  . intro p stepArgs hp _ hlength hbound' hlegible
    refine (hp.sound hsound).spares hlegible ?_
    rw [hp.commandIndices] at hbound' ⊢
    exact (arity_le_iff hbound').mp hlength

end Session

theorem legible_account : accountPlan.Legible "account" where
  call c hc := by
    cases hc
    exact readable_account
  read c hc := by cases hc
  write c hc := by cases hc

theorem arity?_account : accountPlan.arity? "account" = some 2 := by
  show some (arity accountCommand.argIndices) = some 2
  rw [argIndices_account]
  rfl

theorem spares_both
    : ∃ (σ : Session Unit) (t : Target) (s : Step),
        σ.Reachable ∧
        σ.plan.targets.find? "both" = some t ∧
        σ.plan.arity? "both" = some ["0x0", "latest"].length ∧
        (∀ i ∈ t.argIndices σ.plan.commandIndices, i + 1 < indexBound) ∧
        s ∈ t.steps ∧
        s.argsFor ["0x0", "latest"] = .ok ["0x0", "latest"] ∧
        σ.plan.Spares s.command ["0x0", "latest"] := by
  have hσ : Session.Reachable { plan := accountPlan, trace := { world := () } } :=
    .start ofDocument_account _
  have hindices : accountPlan.commandIndices "account" = [0, 1] := argIndices_account
  have hboth : Target.argIndices accountPlan.commandIndices
      ⟨"both", [⟨"account", .call, false, none⟩]⟩ = [0, 1] := by
    show accountPlan.commandIndices "account" ++ [] = [0, 1]
    rw [hindices]
    rfl
  have harity : accountPlan.arity? "both" = some ["0x0", "latest"].length := by
    show some (arity (Target.argIndices accountPlan.commandIndices _)) = some 2
    rw [hboth]
    rfl
  have hbound : ∀ i ∈ Target.argIndices accountPlan.commandIndices
      ⟨"both", [⟨"account", .call, false, none⟩]⟩, i + 1 < indexBound := by
    rw [hboth]
    decide
  obtain ⟨n, hn, hpassed, _, hspares⟩ := Session.target_supplied hσ rfl harity hbound
    ⟨"account", .call, false, none⟩ (List.mem_singleton.mpr rfl)
  obtain ⟨hargs, hle⟩ := hpassed rfl
  refine ⟨_, _, _, hσ, rfl, harity, hbound, List.mem_singleton.mpr rfl, hargs, ?_⟩
  refine hspares _ _ (.refl _) hargs hle ?_ legible_account
  show ∀ i ∈ accountPlan.commandIndices "account", i + 1 < indexBound
  rw [hindices]
  decide

theorem lacks_account
    : LacksArgument (accountPlan.finalize "account" accountCommand.params ["0x0"] none) := by
  let scope : Scope :=
    { command := "account", args := ["0x0"], wallets := Wallets.directory [], sender := none }
  have hfirst : Slot.finalize scope
      ⟨reference "$0", .deferred (.template "$0" .string) (.missingArgument 0 0)⟩
      = .ok (.string "0x0") := by
    have hindices : argIndices "$0" = [0] := by
      rw [argIndices_eq]
      decide
    unfold Slot.finalize
    rw [@Slot.argIndices_of_template? _ "$0" rfl, hindices]
    show (Result.changeKind .resolution ((reference "$0").resolve scope) >>= _) = _
    rw [resolve_first]
    unfold resolveTemplate
    rw [substituteArgs_first]
    rfl
  have hsecond : LacksArgument (Slot.finalize scope
      ⟨reference "$1", .deferred (.template "$1" .string) (.missingArgument 1 0)⟩) := by
    refine (Slot.lacks_finalize_iff ⟨declScope [] [] "account", ?_⟩ scope).mpr ⟨"$1", rfl, ?_⟩
    . rw [resolve_second]
      unfold resolveTemplate declScope
      rw [substituteArgs_second]
      rfl
    . rw [← exists_missing_iff]
      exact ⟨1, substituteArgs_second _⟩
  obtain ⟨e, he, hlacks⟩ := hsecond
  refine ⟨e, ?_, hlacks⟩
  show List.mapM (Slot.finalize scope) _ = _
  unfold accountCommand
  rw [List.mapM_cons, hfirst, List.mapM_cons, he]
  rfl

theorem lacks_short
    : ∃ (σ : Session Unit) (t : Target) (s : Step) (stepArgs : List String),
        σ.Reachable ∧
        σ.plan.targets.find? "short" = some t ∧
        σ.plan.arity? "short" = some ([] : List String).length ∧
        (∀ i ∈ t.argIndices σ.plan.commandIndices, i + 1 < indexBound) ∧
        s ∈ t.steps ∧
        s.argsFor [] = .ok stepArgs ∧
        σ.plan.arity? s.command = some 2 ∧
        stepArgs.length < 2 ∧
        σ.plan.calls.find? s.command = some accountCommand ∧
        LacksArgument (σ.plan.finalize s.command accountCommand.params stepArgs none) := by
  have hσ : Session.Reachable { plan := accountPlan, trace := { world := () } } :=
    .start ofDocument_account _
  have hindices : argIndices "0x0" = [] := by
    rw [argIndices_eq]
    decide
  have hfilled : substituteArgs "0x0" [] = .ok "0x0" := by
    unfold substituteArgs
    rw [Piece.ofChars_eq_map (by decide)]
    rfl
  have hshort : Target.argIndices accountPlan.commandIndices
      ⟨"short", [⟨"account", .call, false, some ["0x0"]⟩]⟩ = [] := by
    show argIndices "0x0" ++ [] ++ [] = []
    rw [hindices]
    rfl
  refine ⟨_, _, _, ["0x0"], hσ, rfl, ?_, ?_, List.mem_singleton.mpr rfl, ?_, arity?_account,
    by decide, rfl, ?_⟩
  . show some (arity (Target.argIndices accountPlan.commandIndices _)) = some 0
    rw [hshort]
    rfl
  . rw [hshort]
    exact fun i hi => absurd hi List.not_mem_nil
  . show ["0x0"].mapM _ = _
    rw [List.mapM_cons, hfilled]
    rfl
  . exact lacks_account

end Targets

end Runbook
