import Runbook.Plan.Contracts
import Runbook.Proofs.Outcome
import Runbook.Proofs.Plan.Names

/-!
This module contains what holds of the instances in a catalogue: each is of a contract that there
is, no two have one name, and more of them come behind those that are there.
-/

namespace Runbook.Catalogue

def instanceNames (c : Catalogue) : List String :=
  c.instances.filterMap Instance.name

structure Sound (c : Catalogue) : Prop where
  names : c.instanceNames.Nodup
  contracts : ∀ i ∈ c.instances, c.builds.contains i.contract = true

/--
The second catalogue has the same contracts, and more instances behind the same ones.
-/
structure Grows (c c' : Catalogue) : Prop where
  builds : c'.builds = c.builds
  instances : c.instances <+: c'.instances

def Offers (c : Catalogue) (id : Nat) (method? : Option String) : Prop :=
  ∃ build, c.buildOf id = .ok build ∧
    ∀ m, method? = some m → build.interface.functionsNamed m ≠ []

variable {c c' c'' : Catalogue} {id : Nat}

theorem lt_of_instance? {i : Instance} (h : c.instance? id = some i) : id < c.instances.length :=
  (List.getElem?_eq_some_iff.mp h).1

theorem buildOf_eq_ok {build : Build}
    : c.buildOf id = .ok build ↔
      ∃ i, c.instance? id = some i ∧ c.builds.find? i.contract = some build := by
  unfold buildOf
  split
  . next hnone => simp [hnone, fail, throw, throwThe, MonadExceptOf.throw]
  . next i hi =>
    split
    . next b hb => simp [hi, hb, pure, Except.pure]
    . next hnone => simp [hi, hnone, fail, throw, throwThe, MonadExceptOf.throw]

theorem lt_of_buildOf {build : Build} (h : c.buildOf id = .ok build)
    : id < c.instances.length := by
  obtain ⟨i, hi, _⟩ := buildOf_eq_ok.mp h
  exact lt_of_instance? hi

theorem Offers.lt {method? : Option String} (h : c.Offers id method?)
    : id < c.instances.length := by
  obtain ⟨build, hbuild, _⟩ := h
  exact lt_of_buildOf hbuild

theorem Sound.exists_build (hc : c.Sound) (h : id < c.instances.length)
    : ∃ build, c.buildOf id = .ok build := by
  have hcontract := hc.contracts c.instances[id] (List.getElem_mem h)
  rw [Entries.contains_eq] at hcontract
  obtain ⟨build, hbuild⟩ := Option.isSome_iff_exists.mp hcontract
  exact ⟨build, buildOf_eq_ok.mpr ⟨_, List.getElem?_eq_getElem h, hbuild⟩⟩

theorem Sound.offers_none (hc : c.Sound) (h : id < c.instances.length) : c.Offers id none := by
  obtain ⟨build, hbuild⟩ := hc.exists_build h
  refine ⟨build, hbuild, ?_⟩
  intro m hm
  cases hm

theorem offers_of_requireMethod {method : String} (h : requireMethod c id method = .ok ())
    : c.Offers id (some method) := by
  obtain ⟨build, hbuild, h⟩ := bind_eq_ok.mp h
  split at h
  . cases h
  . next hne =>
    refine ⟨build, hbuild, ?_⟩
    rintro m ⟨⟩
    simpa using hne

namespace Grows

theorem refl (c : Catalogue) : c.Grows c :=
  ⟨rfl, List.prefix_refl _⟩

theorem trans (h : c.Grows c') (h' : c'.Grows c'') : c.Grows c'' :=
  ⟨h'.builds.trans h.builds, h.instances.trans h'.instances⟩

theorem buildOf {build : Build} (h : c.Grows c') (hbuild : c.buildOf id = .ok build)
    : c'.buildOf id = .ok build := by
  obtain ⟨i, hi, hfind⟩ := buildOf_eq_ok.mp hbuild
  refine buildOf_eq_ok.mpr ⟨i, ?_, ?_⟩
  . obtain ⟨hlt, hget⟩ := List.getElem?_eq_some_iff.mp hi
    exact (List.prefix_iff_getElem?.mp h.instances id hlt).trans (congrArg some hget)
  . rw [h.builds]
    exact hfind

theorem offers {method? : Option String} (h : c.Grows c') (hoffers : c.Offers id method?)
    : c'.Offers id method? := by
  obtain ⟨build, hbuild, hmethod⟩ := hoffers
  exact ⟨build, h.buildOf hbuild, hmethod⟩

end Grows

theorem Sound.add {i : Instance} (hc : c.Sound) (hcontract : c.builds.contains i.contract = true)
    (hname : ∀ n, i.name = some n → n ∉ c.instanceNames) : (c.add i).2.Sound where
  names := by
    have hnames : (c.add i).2.instanceNames = c.instanceNames ++ i.name.toList := by
      unfold instanceNames Catalogue.add
      rw [List.filterMap_append]
      cases hn : i.name <;> simp [hn]
    rw [hnames, List.nodup_append]
    refine ⟨hc.names, ?_, ?_⟩
    . cases i.name <;> simp
    . intro n hn m hm heq
      rw [Option.mem_toList] at hm
      exact hname m hm (heq ▸ hn)
  contracts := by
    intro j hj
    cases List.mem_append.mp hj with
    | inl hmem => exact hc.contracts j hmem
    | inr heq =>
      rw [List.mem_singleton.mp heq]
      exact hcontract

theorem grows_add (c : Catalogue) (i : Instance) : c.Grows (c.add i).2 :=
  ⟨rfl, List.prefix_append _ _⟩

theorem not_mem_of_findNamed? {name : String} (h : (c.findNamed? name).isSome = false)
    : name ∉ c.instanceNames := by
  intro hmem
  obtain ⟨i, hi, hname⟩ := List.mem_filterMap.mp hmem
  unfold findNamed? at h
  rw [Option.isSome_eq_false_iff, Option.isNone_iff_eq_none, List.findIdx?_eq_none_iff] at h
  have := h i hi
  rw [hname] at this
  simp at this

theorem Sound.bind {ref : InstanceRef} (hc : c.Sound) (h : c.bind ref = .ok (id, c'))
    : c'.Sound ∧ c.Grows c' ∧ id < c'.instances.length := by
  cases ref with
  | named name =>
    unfold Catalogue.bind at h
    dsimp only at h
    split at h
    . next id' hfind =>
      cases h
      obtain ⟨hlt, _⟩ := List.findIdx?_eq_some_iff_getElem.mp hfind
      exact ⟨hc, .refl c, hlt⟩
    . cases h
  | inline contract address =>
    unfold Catalogue.bind at h
    dsimp only at h
    split at h
    . cases h
    . next hcontains =>
      obtain ⟨a, _, h⟩ := bind_eq_ok.mp h
      cases h
      refine ⟨hc.add (by simpa using hcontains) ?_, grows_add c _, ?_⟩
      . intro n hn
        cases hn
      . simp

theorem sound_empty : Sound {} :=
  ⟨List.nodup_nil, fun _ h => absurd h List.not_mem_nil⟩

theorem Sound.setBuild (hc : c.Sound) (key : String) (build : Build)
    : Sound { c with builds := c.builds.set key build } where
  names := hc.names
  contracts := by
    intro i hi
    have hmem := Entries.mem_names_iff.mpr (hc.contracts i hi)
    rw [← Entries.mem_names_iff, Entries.names_set]
    split
    . exact hmem
    . exact List.mem_append_left _ hmem

theorem Sound.addInstances {key : String} {ds : List InstanceDecl} (hc : c.Sound)
    (hkey : c.builds.contains key = true) (h : addInstances key c ds = .ok c') : c'.Sound := by
  induction ds generalizing c with
  | nil =>
    cases h
    exact hc
  | cons d ds ih =>
    obtain ⟨address, _, h⟩ := bind_eq_ok.mp h
    split at h
    . next name _ =>
      split at h
      . cases h
      . next hfresh =>
        refine ih (hc.add hkey ?_) hkey h
        rintro n ⟨⟩
        exact not_mem_of_findNamed? (by simpa using hfresh)
    . refine ih (hc.add hkey ?_) hkey h
      intro n hn
      cases hn

variable {ω : Type}

theorem Sound.addDecls {compiler? : Option (Compiler ω)} {shelf : Shelf} {outputs : Outputs}
    {ds : Entries ContractDecl} {t t' : Trace ω} (hc : c.Sound)
    (h : (addDecls compiler? shelf outputs c ds).run t = (.ok c', t')) : c'.Sound := by
  induction ds generalizing c outputs t with
  | nil =>
    cases h
    exact hc
  | cons d ds ih =>
    obtain ⟨⟨build, outputs'⟩, t₁, _, h⟩ := Action.exists_of_run_bind h
    obtain ⟨c₁, t₂, hinstances, h⟩ := Action.exists_of_run_bind h
    have hadded := Result.eq_ok_of_located (Prod.mk.inj hinstances).1
    refine ih ((hc.setBuild d.1 build).addInstances ?_ hadded) h
    rw [Entries.contains_eq, Entries.find?_set]
    rfl

theorem sound_of_ofDecls {compiler? : Option (Compiler ω)} {shelf : Shelf}
    {ds : Entries ContractDecl} {t t' : Trace ω}
    (h : (ofDecls compiler? shelf ds).run t = (.ok c, t')) : c.Sound :=
  sound_empty.addDecls h

end Runbook.Catalogue
