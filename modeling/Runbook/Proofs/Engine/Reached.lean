import Runbook.Proofs.Engine.Signed

/-!
This module contains what holds in all sessions that a checked playbook gets to: its plan stays
sound, instances are looked up where they are, and the steps of targets find their commands.
-/

namespace Runbook

variable {ω : Type}

def Intent.instance? : Intent → Option Nat
  | .transfer _ _ => none
  | .deploy id _ | .tokens id _ _ | .method id _ _ => some id

/--
The instances that a session looks up by their number: those of commands and of what these come to,
that of a token which an amount names, and those that are asked for their symbols.
-/
inductive Plan.Uses (p : Plan) : Nat → Prop where
  | read {name : String} {c : ReadCommand} (h : p.reads.find? name = some c) : p.Uses c.target
  | write {name : String} {c : WriteCommand} {id : Nat} (h : p.writes.find? name = some c)
      (hid : c.target = some id) : p.Uses id
  | intent {name : String} {c : WriteCommand} {args : List String} {amount : Option Amount}
      {intent : Intent} {id : Nat} (h : p.writes.find? name = some c)
      (hintent : p.intent c args amount = .ok intent) (hid : intent.instance? = some id) : p.Uses id
  | token {symbol : String} {id : Nat} (h : p.catalogue.findSymbol? symbol = some id) : p.Uses id
  | probe {id : Nat} (h : id ∈ p.catalogue.ids) : p.Uses id

theorem Catalogue.lt_of_findSymbol? {c : Catalogue} {symbol : String} {id : Nat}
    (h : c.findSymbol? symbol = some id) : id < c.instances.length := by
  obtain ⟨hlt, _⟩ := List.findIdx?_eq_some_iff_getElem.mp h
  exact hlt

theorem Plan.Sound.lt_of_uses {d : Document} {p : Plan} {id : Nat} (hp : p.Sound d)
    (h : p.Uses id) : id < p.catalogue.instances.length := by
  have hwrite {name : String} {c : WriteCommand} {id : Nat} (hc : p.writes.find? name = some c)
      (hid : c.target = some id) : id < p.catalogue.instances.length := by
    obtain ⟨_, _, hchecked⟩ := hp.writes.find? hc
    exact (hchecked.offers id hid).lt
  cases h with
  | read hc =>
    obtain ⟨_, _, hchecked⟩ := hp.reads.find? hc
    exact hchecked.offers.lt
  | write hc hid => exact hwrite hc hid
  | intent hc hintent hid =>
    cases means_of_intent hintent with
    | transfer => cases hid
    | deploy htarget =>
      cases hid
      exact hwrite hc htarget
    | tokens _ hsymbol =>
      cases hid
      exact Catalogue.lt_of_findSymbol? hsymbol
    | method htarget =>
      cases hid
      exact hwrite hc htarget
  | token hsymbol => exact Catalogue.lt_of_findSymbol? hsymbol
  | probe hmem => exact List.mem_range.mp hmem

namespace Session

/--
The second session comes from the first one by running commands, targets or single steps, against
any hosts and with any world around them.
-/
inductive Leads (σ₀ : Session ω) : Session ω → Prop where
  | refl : Leads σ₀ σ₀
  | command {σ : Session ω} (h : Leads σ₀ σ) (host : Host ω) (name : String) (args : List String)
      : Leads σ₀ ((runCommand host name args).run σ).2
  | target {σ : Session ω} (h : Leads σ₀ σ) (host : Host ω) (observe : StepOutcome → ω → ω)
      (name : String) (args : List String)
      : Leads σ₀ ((runTarget host observe name args).run σ).2
  | step {σ : Session ω} (h : Leads σ₀ σ) (host : Host ω) (s : Step) (args : List String)
      : Leads σ₀ (runStep host s args σ).2
  | outside {σ : Session ω} (h : Leads σ₀ σ) (trace : Trace ω) : Leads σ₀ { σ with trace }

variable {σ₀ σ : Session ω}

theorem Leads.like (h : Leads σ₀ σ) : σ₀.plan.Like σ.plan := by
  induction h with
  | refl => exact .refl _
  | command _ host name args ih => exact ih.trans (follows_runCommand name args _).like
  | target _ host observe name args ih => exact ih.trans (like_runTarget ..)
  | step _ host s args ih => exact ih.trans (follows_runStep s args _).like
  | outside _ _ ih => exact ih

/--
However its commands and targets are run, the plan of a checked playbook stays sound. Every number
that an instance is looked up by is one of an instance, and every step of a target runs its command.
-/
theorem leads_sound {services : Services ω} {d : Document} {i : Invocation} {p : Plan}
    {t t' trace : Trace ω} {node : Option (Node ω)}
    (h : (Plan.ofDocument services d i).run t = (.ok (p, node), t'))
    (hσ : Leads { plan := p, trace } σ)
    : σ.plan.Sound d ∧
      (∀ id, σ.plan.Uses id → id < σ.plan.catalogue.instances.length) ∧
      ∀ name target, σ.plan.targets.find? name = some target → ∀ s ∈ target.steps,
        ∀ (host : Host ω) (args : List String), ∃ results σ',
          (runCommand host s.command args).run σ = (.ok results, σ') := by
  have hsound := hσ.like.sound (Plan.sound_of_ofDocument h)
  refine ⟨hsound, fun id => hsound.lt_of_uses, ?_⟩
  intro name target htarget s hs host args
  obtain ⟨results, σ', hrun, _⟩ :=
    runCommand_of_kind args ((hsound.targetsFit name target htarget).steps s hs).kind
  exact ⟨results, σ', hrun⟩

def aliceKey : PrivateKey where
  scalar := 1
  scalar_pos := by decide
  scalar_lt := by decide

def alice : Wallet where
  address := aliceKey.address
  credential := .embedded aliceKey

def launchBuild : Build where
  interface :=
    { constructor? := none
      functions := [{ name := "mint", inputs := [], outputs := [] }] }
  bytecode := [0x60, 0x80]

def launchServices : Services Unit :=
  { silentServices with compiler := some ⟨fun _ _ w => (.ok [("Token", launchBuild)], w)⟩ }

def mintDecl : WriteDecl where
  wallet := some "alice"
  method := some "mint"
  instanceRef := some (.named "token")

def launchDocument : Document where
  wallets := paymentDocument.wallets
  contracts :=
    some [("Token", { sol := some "Token.sol", instances := [{ name := some "token" }] })]
  writes := some [("mint", mintDecl)]
  targets := some [("launch", [.short "mint"])]

def launchCatalogue : Catalogue where
  builds := [("Token", launchBuild)]
  instances := [{ name := some "token", contract := "Token", address := none }]

def mintCommand : WriteCommand where
  name := "mint"
  description := none
  wallet := "alice"
  stickyKey := "mint"
  method := some "mint"
  params := []
  target := some 0
  value := none
  recipient := none

def launchPlan : Plan where
  wallets := [("alice", alice)]
  catalogue := launchCatalogue
  writes := [("mint", mintCommand)]
  targets := [("launch", ⟨"launch", [⟨"mint", .write, false, none⟩]⟩)]

def launchBuildWith (functions : List Abi.Function) : Build :=
  { launchBuild with interface := { launchBuild.interface with functions } }

def launchServicesWith (functions : List Abi.Function) : Services Unit :=
  { silentServices with
      compiler := some ⟨fun _ _ w => (.ok [("Token", launchBuildWith functions)], w)⟩ }

def launchCatalogueWith (functions : List Abi.Function) : Catalogue :=
  { launchCatalogue with builds := [("Token", launchBuildWith functions)] }

def launchPlanWith (functions : List Abi.Function) : Plan :=
  { launchPlan with catalogue := launchCatalogueWith functions }

section Launch

variable {functions : List Abi.Function}

theorem ofDecl_mint (hmint : (functions.filter (·.name == "mint")).isEmpty = false)
    : ∃ s, WriteCommand.ofDecl [("alice", alice)] [] (launchCatalogueWith functions) {} "mint"
          mintDecl
        = .ok (mintCommand, launchCatalogueWith functions, s) := by
  obtain ⟨selector, hparse, hmatching⟩ := selector_alice
  obtain ⟨s, hselect⟩ := select_singleton "mint" "alice"
  have htrim : Text.trim "alice" = "alice" := by decide
  have hnames : Entries.names [("alice", alice)] = ["alice"] := rfl
  have hbind : (launchCatalogueWith functions).bind (.named "token")
      = .ok (0, launchCatalogueWith functions) := rfl
  have hfilter : (some "mint").filter (fun m => !(Text.trim m).isEmpty) = some "mint" := by decide
  have hmethod : requireMethod (launchCatalogueWith functions) 0 "mint" = .ok () :=
    if_neg (Bool.eq_false_iff.mp hmint)
  unfold WriteCommand.ofDecl
  simp only [mintDecl, Option.getD_some, Option.getD_none, htrim, hnames, hparse, hmatching,
    hselect, hbind, hfilter, hmethod, pure, Except.pure, bind, Except.bind, WriteCommand.bindTarget]
  exact ⟨_, rfl⟩

theorem exists_launchWith (hmint : (functions.filter (·.name == "mint")).isEmpty = false)
    : ∃ t,
        (Plan.ofDocument (launchServicesWith functions) launchDocument {}).run { world := () }
          = (.ok (launchPlanWith functions, none), t) := by
  obtain ⟨t₁, hwallets⟩ : ∃ t₁,
      (Wallet.ofDecls (launchServicesWith functions).keyring (launchServicesWith functions).shelf
        (launchDocument.wallets.getD [])).run { world := () } = (.ok [("alice", alice)], t₁) :=
    ⟨_, rfl⟩
  obtain ⟨t₂, hcatalogue⟩ : ∃ t₂,
      (Catalogue.ofDecls (launchServicesWith functions).compiler
        (launchServicesWith functions).shelf (launchDocument.contracts.getD [])).run t₁
        = (.ok (launchCatalogueWith functions), t₂) :=
    ⟨_, rfl⟩
  obtain ⟨s, hdecl⟩ := ofDecl_mint hmint
  obtain ⟨t₃, hwrites⟩ : ∃ t₃,
      (Plan.addWrites []
        { wallets := [("alice", alice)], catalogue := launchCatalogueWith functions } {} {}
        (launchDocument.writes.getD [])).run t₂
        = (.ok ({ wallets := [("alice", alice)]
                  catalogue := launchCatalogueWith functions
                  writes := [("mint", mintCommand)] }, ⟨[("mint", "WRITE")]⟩), t₃) := by
    unfold Plan.addWrites
    dsimp only [launchDocument, Option.getD_some]
    rw [hdecl]
    exact ⟨_, rfl⟩
  refine ⟨t₃, ?_⟩
  exact Plan.run_ofDocument rfl rfl hwallets hcatalogue rfl rfl hwrites rfl

end Launch

theorem exists_launch
    : ∃ t,
        (Plan.ofDocument launchServices launchDocument {}).run { world := () }
          = (.ok (launchPlan, none), t) :=
  @exists_launchWith launchBuild.interface.functions rfl

theorem sound_launched
    : ∃ (p : Plan) (t : Trace Unit) (σ : Session Unit),
        (Plan.ofDocument launchServices launchDocument {}).run { world := () }
          = (.ok (p, none), t) ∧
        ((runTarget silentHost (fun _ w => w) "launch" []).run { plan := p, trace := t }).2 = σ ∧
        σ.plan.Sound launchDocument ∧
        σ.plan.Uses 0 ∧
        0 < σ.plan.catalogue.instances.length ∧
        ∀ (host : Host Unit) (args : List String), ∃ results σ',
          (runCommand host "mint" args).run σ = (.ok results, σ') := by
  obtain ⟨t, hchecked⟩ := exists_launch
  have hstart : Leads { plan := launchPlan, trace := t } { plan := launchPlan, trace := t } :=
    .refl
  have hleads := hstart.target silentHost (fun _ w => w) "launch" []
  obtain ⟨hsound, hinstances, hsteps⟩ := leads_sound hchecked hleads
  have huses : Plan.Uses _ 0 :=
    @Plan.Uses.write _ "mint" mintCommand 0 (by rw [hleads.like.writes]; rfl) rfl
  refine ⟨_, t, _, hchecked, rfl, hsound, huses, hinstances 0 huses, ?_⟩
  exact hsteps "launch" _ (by rw [hleads.like.targets]; rfl) _ (List.mem_singleton.mpr rfl)

end Session

end Runbook
