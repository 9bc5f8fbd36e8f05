import Runbook.Document.Reader

/-!
This module contains which keys the mappings of a playbook document may have. A key that the record
of its place does not declare makes the document unreadable, unless that record is a step of a
target: there the key is passed over.
-/

namespace Runbook

namespace Schema

/--
The key is the text of one of the record's names. Where a choice of forms is read, it may also be
the number of a field.
-/
def Declares (s : Schema) (m : Manner) (k : Yaml.Node) : Prop :=
  (∃ name, k.text? m = some name ∧ ∃ names ∈ s.fields, name ∈ names) ∨
    m = .chosen ∧ ∃ n : Nat, k.resolved? = some (.int n) ∧ n < s.fields.length

variable {s : Schema} {m : Manner} {pairs : List (Yaml.Node × Yaml.Node)}
variable {nodes : List (Option Yaml.Node)} {k v : Yaml.Node} {i : Nat} {name : String}

theorem lt_of_index? (h : s.index? name = some i) : i < s.fields.length := by
  obtain ⟨hlt, _⟩ := List.findIdx?_eq_some_iff_getElem.mp h
  exact hlt

theorem isSome_index? : (s.index? name).isSome = true ↔ ∃ names ∈ s.fields, name ∈ names := by
  unfold index?
  rw [List.findIdx?_isSome, List.any_eq_true]
  simp only [List.contains_iff_mem]

theorem declares_iff : s.Declares m k ↔ (s.key? m k).join.isSome = true := by
  unfold Declares key?
  cases m with
  | fixed =>
    cases htext : k.text? .fixed with
    | none => simp
    | some name => simp [← isSome_index?]
  | chosen =>
    unfold Yaml.Node.text?
    dsimp only
    cases k.resolved? with
    | none => simp
    | some r =>
      cases r with
      | text name => simp [← isSome_index?]
      | int n =>
        cases n with
        | ofNat n =>
          have hnat : ¬ (n : Int) < 0 := by omega
          have hnumber : (∃ i : Nat, some (Yaml.Resolved.int (.ofNat n)) = some (.int i) ∧
              i < s.fields.length) ↔ n < s.fields.length := by
            constructor
            . rintro ⟨i, ⟨⟩, hlt⟩
              exact hlt
            . exact fun hlt => ⟨n, rfl, hlt⟩
          rw [hnumber]
          by_cases hlt : n < s.fields.length
          . simp [hlt, hnat]
          . simp [hlt, hnat]
        | negSucc n => simp [Int.negSucc_lt_zero]
      | _ => simp

instance : Decidable (s.Declares m k) :=
  decidable_of_iff _ declares_iff.symm

theorem lt_of_key? (h : s.key? m k = some (some i)) : i < s.fields.length := by
  unfold key? at h
  split at h
  . obtain ⟨name, _, hindex⟩ := Option.map_eq_some_iff.mp h
    exact lt_of_index? hindex
  . split at h
    . exact lt_of_index? (Option.some.inj h)
    . split at h
      . cases h
      . split at h
        . next hlt =>
          cases h
          exact hlt
        . cases h
    . cases h

theorem ofPairs?_cons_eq_some
    : s.ofPairs? m ((k, v) :: pairs) = some nodes ↔
        ∃ rest, s.ofPairs? m pairs = some rest ∧
          ((s.key? m k = some none ∧ s.closed = false ∧ rest = nodes) ∨
            ∃ i, s.key? m k = some (some i) ∧ (rest[i]?.join).isSome = false ∧
              rest.set i (some v) = nodes) := by
  rw [ofPairs?]
  cases s.ofPairs? m pairs with
  | none => simp
  | some rest =>
    simp only [Option.bind_eq_bind, Option.bind_some, Option.some_inj, exists_eq_left']
    cases s.key? m k with
    | none => simp
    | some field =>
      cases field with
      | none => cases s.closed <;> simp
      | some i => cases (rest[i]?.join).isSome <;> simp

theorem length_of_ofPairs? (h : s.ofPairs? m pairs = some nodes)
    : nodes.length = s.fields.length := by
  induction pairs generalizing nodes with
  | nil =>
    cases h
    exact List.length_map _
  | cons p pairs ih =>
    obtain ⟨rest, hrest, ⟨_, _, rfl⟩ | ⟨i, _, _, rfl⟩⟩ := ofPairs?_cons_eq_some.mp h
    . exact ih hrest
    . rw [List.length_set]
      exact ih hrest

theorem declares_of_ofPairs? (hclosed : s.closed = true) (h : s.ofPairs? m pairs = some nodes)
    : ∀ p ∈ pairs, s.Declares m p.1 := by
  induction pairs generalizing nodes with
  | nil => exact List.forall_mem_nil _
  | cons p pairs ih =>
    obtain ⟨rest, hrest, ⟨_, hopen, _⟩ | ⟨i, hkey, _, _⟩⟩ := ofPairs?_cons_eq_some.mp h
    . rw [hclosed] at hopen
      cases hopen
    . refine List.forall_mem_cons.mpr ⟨?_, ih hrest⟩
      rw [declares_iff, hkey]
      rfl

theorem getElem?_of_ofPairs? (h : s.ofPairs? m pairs = some nodes) (hmem : (k, v) ∈ pairs)
    (hkey : s.key? m k = some (some i)) : nodes[i]? = some (some v) := by
  induction pairs generalizing nodes with
  | nil => cases hmem
  | cons p pairs ih =>
    obtain ⟨rest, hrest, hcases⟩ := ofPairs?_cons_eq_some.mp h
    have hlength : rest.length = s.fields.length := length_of_ofPairs? hrest
    rcases List.mem_cons.mp hmem with rfl | hmem
    . rcases hcases with ⟨hunknown, _, _⟩ | ⟨i', hkey', _, rfl⟩
      . rw [hkey] at hunknown
        cases hunknown
      . cases hkey.symm.trans hkey'
        rw [List.getElem?_set_self]
        rw [hlength]
        exact lt_of_key? hkey
    . have hfield : rest[i]? = some (some v) := ih hrest hmem
      rcases hcases with ⟨_, _, rfl⟩ | ⟨i', _, hfree, rfl⟩
      . exact hfield
      . have hne : i' ≠ i := by
          rintro rfl
          rw [hfield] at hfree
          cases hfree
        rw [List.getElem?_set_ne hne]
        exact hfield

theorem ofPairs?_filter (h : s.ofPairs? m pairs = some nodes)
    : s.ofPairs? m (pairs.filter fun p => s.Declares m p.1) = some nodes := by
  induction pairs generalizing nodes with
  | nil => exact h
  | cons p pairs ih =>
    obtain ⟨rest, hrest, hcases⟩ := ofPairs?_cons_eq_some.mp h
    rcases hcases with ⟨hunknown, _, rfl⟩ | ⟨i, hkey, hfree, rfl⟩
    . have hundeclared : ¬ s.Declares m p.1 := by
        rw [declares_iff, hunknown]
        exact Bool.false_ne_true
      rw [List.filter_cons_of_neg (by simpa using hundeclared)]
      exact ih hrest
    . have hdeclared : s.Declares m p.1 := by
        rw [declares_iff, hkey]
        rfl
      rw [List.filter_cons_of_pos (by simpa using hdeclared)]
      exact ofPairs?_cons_eq_some.mpr ⟨rest, ih hrest, .inr ⟨i, hkey, hfree, rfl⟩⟩

/--
What stands for the field `name` of a record: the value behind a key of that field or, if the record
is written as a list, the item at its place.
-/
inductive Field (s : Schema) (m : Manner) (name : String) : Yaml.Node → Yaml.Node → Prop where
  | key {pairs : List (Yaml.Node × Yaml.Node)} {tag : Option String} {k v : Yaml.Node} {i : Nat}
      (hmem : (k, v) ∈ pairs) (hkey : s.key? m k = some (some i)) (hname : s.index? name = some i)
      : Field s m name (.map pairs tag) v
  | place {items : List Yaml.Node} {tag : Option String} {v : Yaml.Node} {i : Nat}
      (hitem : items[i]? = some v) (hname : s.index? name = some i)
      : Field s m name (.seq items tag) v

end Schema

namespace Yaml.Node

def isScalar : Yaml.Node → Bool
  | scalar _ _ _ => true
  | _ => false

inductive Item : Yaml.Node → Yaml.Node → Prop where
  | mk {items : List Yaml.Node} {tag : Option String} {n : Yaml.Node} (hmem : n ∈ items)
      : Item (.seq items tag) n

inductive Entry : Yaml.Node → Yaml.Node → Prop where
  | mk {pairs : List (Yaml.Node × Yaml.Node)} {tag : Option String} {k n : Yaml.Node}
      (hmem : (k, n) ∈ pairs) : Entry (.map pairs tag) n

variable {α : Type} {m : Manner} {read : Yaml.Node → Option α} {n v : Yaml.Node}

theorem isSome_of_optional? (h : (optional? m read n).isSome = true)
    : n.isScalar = true ∨ (read n).isSome = true := by
  cases n with
  | scalar text style tag => exact .inl rfl
  | _ =>
    right
    cases m with
    | fixed => simpa [optional?] using h
    | chosen => simpa [optional?, resolved?] using h

theorem isSome_of_mapM {β : Type} {f : α → Option β} {xs : List α} (h : (xs.mapM f).isSome = true)
    : ∀ x ∈ xs, (f x).isSome = true := by
  induction xs with
  | nil => exact List.forall_mem_nil _
  | cons x xs ih =>
    rw [List.mapM_cons] at h
    cases hx : f x with
    | none =>
      rw [hx] at h
      cases h
    | some y =>
      rw [hx] at h
      refine List.forall_mem_cons.mpr ⟨by rw [hx]; rfl, ih ?_⟩
      cases hxs : xs.mapM f with
      | none =>
        rw [hxs] at h
        cases h
      | some ys => rfl

theorem isSome_of_list? (h : (list? m read v).isSome = true) (hitem : v.Item n)
    : (read n).isSome = true := by
  cases hitem with
  | mk hmem => exact isSome_of_mapM h _ hmem

theorem isSome_of_entries? (h : (entries? read v).isSome = true) (hentry : v.Entry n)
    : (read n).isSome = true := by
  cases hentry with
  | @mk pairs tag k _ hmem =>
    obtain ⟨entries, h⟩ := Option.isSome_iff_exists.mp h
    obtain ⟨named, hnamed, _⟩ := Option.bind_eq_some_iff.mp h
    obtain ⟨entry, hentry⟩ :=
      Option.isSome_iff_exists.mp (isSome_of_mapM (Option.isSome_of_mem hnamed) _ hmem)
    obtain ⟨_, _, hentry⟩ := Option.bind_eq_some_iff.mp hentry
    obtain ⟨_, hread, _⟩ := Option.bind_eq_some_iff.mp hentry
    rw [hread]
    rfl

end Yaml.Node

namespace Record

variable {α : Type} {m : Manner} {closed : Bool} {fields : List (List String)} {r : Record}
variable {name : String} {read : Yaml.Node → Option α} {n v : Yaml.Node}

theorem node?_of_field (hr : ofNode? m closed fields n = some r)
    (h : (⟨fields, closed⟩ : Schema).Field m name n v) : r.node? name = some v := by
  obtain ⟨nodes, hnodes, rfl⟩ := Option.map_eq_some_iff.mp hr
  cases h with
  | @key pairs tag k _ i hmem hkey hname =>
    have hfield := Schema.getElem?_of_ofPairs? hnodes hmem hkey
    unfold node?
    dsimp only
    rw [hname, Option.bind_some, hfield]
    rfl
  | @place items tag _ i hitem hname =>
    have hfield : nodes[i]? = some (some v) := by
      obtain ⟨hlt, _⟩ := List.getElem?_eq_some_iff.mp hitem
      unfold Schema.nodes? at hnodes
      dsimp only at hnodes
      split at hnodes
      . cases hnodes
        rw [List.getElem?_append_left (by rwa [List.length_map]), List.getElem?_map, hitem]
        rfl
      . cases hnodes
    unfold node?
    dsimp only
    rw [hname, Option.bind_some, hfield]
    rfl

theorem isSome_of_optional (h : (r.optional name read).isSome = true) (hv : r.node? name = some v)
    : v.isScalar = true ∨ (read v).isSome = true := by
  unfold optional at h
  rw [hv] at h
  exact Yaml.Node.isSome_of_optional? h

theorem isSome_of_withDefault {default : α} (h : (r.withDefault name default read).isSome = true)
    (hv : r.node? name = some v) : (read v).isSome = true := by
  unfold withDefault at h
  rw [hv] at h
  exact h

end Record

inductive Role where
  | config
  | wallet
  | contract
  | contractInstance
  | call
  | read
  | write
  | inlineInstance
  | typedParam
  | step
deriving Repr, DecidableEq

namespace Role

def schema : Role → Schema
  | config => ⟨[["gasPrice"], ["gasLimit"], ["chainID", "chainId"], ["awaitTimeout"]], true⟩
  | wallet => ⟨[["address"], ["privkey"], ["password"], ["keystore"], ["keyfile"]], true⟩
  | contract => ⟨[["name"], ["sol"], ["artifact"], ["optimize"], ["instances"]], true⟩
  | contractInstance => ⟨[["name"], ["address"]], true⟩
  | call => ⟨[["description"], ["wallet"], ["method"], ["params"]], true⟩
  | read => ⟨[["description"], ["wallet"], ["method"], ["params"], ["instance"]], true⟩
  | write =>
    ⟨[["description"], ["wallet"], ["sticky"], ["method"], ["params"], ["instance"], ["value"],
      ["to"]], true⟩
  | inlineInstance => ⟨[["contract"], ["address"]], true⟩
  | typedParam => ⟨[["type"], ["value"], ["reference"]], true⟩
  | step => ⟨[["command"], ["args"], ["deferred"]], false⟩

def manner : Role → Manner
  | inlineInstance | typedParam | step => .chosen
  | _ => .fixed

def section? : Role → Option String
  | wallet => some "WALLETS"
  | contract => some "CONTRACTS"
  | call => some "CALL"
  | read => some "READ"
  | write => some "WRITE"
  | _ => none

def isCommand : Role → Bool
  | call | read | write => true
  | _ => false

/--
Whether what stands in such a place can be read. Where there is a choice of forms, it need not be a
record.
-/
def accepts : Role → Yaml.Node → Bool
  | config, n => (ConfigDecl.ofNode? n).isSome
  | wallet, n => (WalletDecl.ofNode? n).isSome
  | contract, n => (ContractDecl.ofNode? n).isSome
  | contractInstance, n => (InstanceDecl.ofNode? n).isSome
  | call, n => (CallDecl.ofNode? n).isSome
  | read, n => (ReadDecl.ofNode? n).isSome
  | write, n => (WriteDecl.ofNode? n).isSome
  | inlineInstance, n => (InstanceRef.ofNode? n).isSome
  | typedParam, n => (ParamDecl.ofNode? n).isSome
  | step, n => (StepDecl.ofNode? n).isSome

end Role

namespace Document

def schema : Schema :=
  ⟨[["CONFIG"], ["INVENTORY"], ["WALLETS"], ["CONTRACTS"], ["TARGETS"], ["CALL"], ["READ", "VIEW"],
    ["WRITE"]], false⟩

inductive Holds (root : Yaml.Node) : Role → Yaml.Node → Prop where
  | config {n : Yaml.Node} (hn : schema.Field .fixed "CONFIG" root n) : Holds root .config n
  | entry {role : Role} {name : String} {v n : Yaml.Node} (hname : role.section? = some name)
      (hv : schema.Field .fixed name root v) (hn : v.Entry n) : Holds root role n
  | contractInstance {c v n : Yaml.Node} (hc : Holds root .contract c)
      (hv : Role.contract.schema.Field .fixed "instances" c v) (hn : v.Item n)
      : Holds root .contractInstance n
  | typedParam {role : Role} {c v n : Yaml.Node} (hrole : role.isCommand = true)
      (hc : Holds root role c) (hv : role.schema.Field .fixed "params" c v) (hn : v.Item n)
      : Holds root .typedParam n
  | inlineInstance {role : Role} {c n : Yaml.Node} (hrole : role = .read ∨ role = .write)
      (hc : Holds root role c) (hn : role.schema.Field .fixed "instance" c n)
      : Holds root .inlineInstance n
  | step {v steps n : Yaml.Node} (hv : schema.Field .fixed "TARGETS" root v)
      (hsteps : v.Entry steps) (hn : steps.Item n) : Holds root .step n

end Document

section Records

variable {pairs : List (Yaml.Node × Yaml.Node)} {tag : Option String} {n : Yaml.Node}

theorem InstanceRef.exists_record {d : InstanceRef} (h : ofNode? (.map pairs tag) = some d)
    : ∃ r, Record.ofNode? .chosen true Role.inlineInstance.schema.fields (.map pairs tag)
        = some r := by
  have htext : (Yaml.Node.map pairs tag).text? .chosen = none := rfl
  unfold ofNode? at h
  rw [htext] at h
  split at h
  . obtain ⟨r, hr, _⟩ := Option.bind_eq_some_iff.mp h
    exact ⟨r, hr⟩
  . cases h

theorem ParamDecl.exists_record {d : ParamDecl} (h : ofNode? (.map pairs tag) = some d)
    : ∃ r, Record.ofNode? .chosen true Role.typedParam.schema.fields (.map pairs tag) = some r := by
  unfold ofNode? at h
  split at h
  . split at h
    . next p hp =>
      obtain ⟨r, hr, _⟩ := Option.bind_eq_some_iff.mp hp
      exact ⟨r, hr⟩
    . cases h
  . cases h

theorem StepDecl.exists_record {d : StepDecl} (h : ofNode? (.map pairs tag) = some d)
    : ∃ r, Record.ofNode? .chosen false Role.step.schema.fields (.map pairs tag) = some r := by
  unfold ofNode? at h
  split at h
  . obtain ⟨r, hr, _⟩ := Option.bind_eq_some_iff.mp h
    exact ⟨r, hr⟩
  . cases h

theorem ContractDecl.exists_record {d : ContractDecl} (h : ofNode? n = some d)
    : ∃ r, Record.ofNode? .fixed true Role.contract.schema.fields n = some r ∧
        r.withDefault "instances" [] (Yaml.Node.list? .fixed InstanceDecl.ofNode?)
          = some d.instances := by
  simp only [ofNode?, Option.bind_eq_bind, Option.bind_eq_some_iff] at h
  obtain ⟨r, hr, _, _, _, _, _, _, _, _, _, hinstances, h⟩ := h
  cases h
  exact ⟨r, hr, hinstances⟩

theorem CallDecl.exists_record {d : CallDecl} (h : ofNode? n = some d)
    : ∃ r, Record.ofNode? .fixed true Role.call.schema.fields n = some r ∧
        r.params = some d.params := by
  simp only [ofNode?, Option.bind_eq_bind, Option.bind_eq_some_iff] at h
  obtain ⟨r, hr, _, _, _, _, _, _, _, hparams, h⟩ := h
  cases h
  exact ⟨r, hr, hparams⟩

theorem ReadDecl.exists_record {d : ReadDecl} (h : ofNode? n = some d)
    : ∃ r, Record.ofNode? .fixed true Role.read.schema.fields n = some r ∧
        r.params = some d.params ∧
        r.optional "instance" InstanceRef.ofNode? = some d.instanceRef := by
  simp only [ofNode?, Option.bind_eq_bind, Option.bind_eq_some_iff] at h
  obtain ⟨r, hr, _, _, _, _, _, _, _, hparams, _, hinstance, h⟩ := h
  cases h
  exact ⟨r, hr, hparams, hinstance⟩

theorem WriteDecl.exists_record {d : WriteDecl} (h : ofNode? n = some d)
    : ∃ r, Record.ofNode? .fixed true Role.write.schema.fields n = some r ∧
        r.params = some d.params ∧
        r.optional "instance" InstanceRef.ofNode? = some d.instanceRef := by
  simp only [ofNode?, Option.bind_eq_bind, Option.bind_eq_some_iff] at h
  obtain ⟨r, hr, _, _, _, _, _, _, _, _, _, hparams, _, hinstance, _, _, _, _, h⟩ := h
  cases h
  exact ⟨r, hr, hparams, hinstance⟩

theorem Document.exists_record {d : Document} (h : ofNode? n = some d)
    : ∃ r, Record.ofNode? .fixed false schema.fields n = some r ∧
        r.optional "CONFIG" ConfigDecl.ofNode? = some d.config ∧
        sectionOf r "WALLETS" WalletDecl.ofNode? = some d.wallets ∧
        sectionOf r "CONTRACTS" ContractDecl.ofNode? = some d.contracts ∧
        sectionOf r "TARGETS" (Yaml.Node.list? .fixed StepDecl.ofNode?) = some d.targets ∧
        sectionOf r "CALL" CallDecl.ofNode? = some d.calls ∧
        sectionOf r "READ" ReadDecl.ofNode? = some d.reads ∧
        sectionOf r "WRITE" WriteDecl.ofNode? = some d.writes := by
  simp only [ofNode?, Option.bind_eq_bind, Option.bind_eq_some_iff] at h
  obtain ⟨r, hr, _, hconfig, _, _, _, hwallets, _, hcontracts, _, htargets, _, hcalls, _, hreads, _,
    hwrites, h⟩ := h
  cases h
  exact ⟨r, hr, hconfig, hwallets, hcontracts, htargets, hcalls, hreads, hwrites⟩

end Records

theorem Record.isSome_ofPairs? {m : Manner} {closed : Bool} {fields : List (List String)}
    {pairs : List (Yaml.Node × Yaml.Node)} {tag : Option String} {r : Record}
    (h : ofNode? m closed fields (.map pairs tag) = some r)
    : ((⟨fields, closed⟩ : Schema).ofPairs? m pairs).isSome = true := by
  obtain ⟨nodes, hnodes, _⟩ := Option.map_eq_some_iff.mp h
  exact Option.isSome_of_mem hnodes

namespace Role

variable {role : Role} {pairs : List (Yaml.Node × Yaml.Node)} {tag : Option String} {n : Yaml.Node}

theorem isSome_ofPairs?_of_accepts (h : role.accepts (.map pairs tag) = true)
    : (role.schema.ofPairs? role.manner pairs).isSome = true := by
  cases role with
  | inlineInstance =>
    obtain ⟨d, hd⟩ := Option.isSome_iff_exists.mp h
    obtain ⟨r, hr⟩ := InstanceRef.exists_record hd
    exact Record.isSome_ofPairs? hr
  | typedParam =>
    obtain ⟨d, hd⟩ := Option.isSome_iff_exists.mp h
    obtain ⟨r, hr⟩ := ParamDecl.exists_record hd
    exact Record.isSome_ofPairs? hr
  | step =>
    obtain ⟨d, hd⟩ := Option.isSome_iff_exists.mp h
    obtain ⟨r, hr⟩ := StepDecl.exists_record hd
    exact Record.isSome_ofPairs? hr
  | _ =>
    obtain ⟨d, hd⟩ := Option.isSome_iff_exists.mp h
    obtain ⟨r, hr, _⟩ := Option.bind_eq_some_iff.mp hd
    exact Record.isSome_ofPairs? hr

theorem exists_record_of_isCommand (hrole : role.isCommand = true) (h : role.accepts n = true)
    : ∃ r, Record.ofNode? .fixed role.schema.closed role.schema.fields n = some r ∧
        r.params.isSome = true ∧
        (role = .read ∨ role = .write →
          (r.optional "instance" InstanceRef.ofNode?).isSome = true) := by
  cases role with
  | call =>
    obtain ⟨d, hd⟩ := Option.isSome_iff_exists.mp h
    obtain ⟨r, hr, hparams⟩ := CallDecl.exists_record hd
    exact ⟨r, hr, Option.isSome_of_mem hparams, by rintro (h | h) <;> cases h⟩
  | read =>
    obtain ⟨d, hd⟩ := Option.isSome_iff_exists.mp h
    obtain ⟨r, hr, hparams, hinstance⟩ := ReadDecl.exists_record hd
    exact ⟨r, hr, Option.isSome_of_mem hparams, fun _ => Option.isSome_of_mem hinstance⟩
  | write =>
    obtain ⟨d, hd⟩ := Option.isSome_iff_exists.mp h
    obtain ⟨r, hr, hparams, hinstance⟩ := WriteDecl.exists_record hd
    exact ⟨r, hr, Option.isSome_of_mem hparams, fun _ => Option.isSome_of_mem hinstance⟩
  | _ => cases hrole

end Role

namespace Document

variable {root n v : Yaml.Node} {role : Role} {d : Document}

theorem isSome_of_sectionOf {α : Type} {r : Record} {name : String} {read : Yaml.Node → Option α}
    {es : Option (Entries α)} (h : sectionOf r name read = some es) (hv : r.node? name = some v)
    (hn : v.Entry n) : (read n).isSome = true := by
  rcases Record.isSome_of_optional (Option.isSome_of_mem h) hv with hscalar | hentries
  . cases hn
    cases hscalar
  . exact Yaml.Node.isSome_of_entries? hentries hn

theorem Holds.accepts (h : Holds root role n) (hd : ofNode? root = some d)
    : n.isScalar = true ∨ role.accepts n = true := by
  obtain ⟨r, hr, hconfig, hwallets, hcontracts, htargets, hcalls, hreads, hwrites⟩ :=
    exists_record hd
  -- By the place: the document was read, so that its sections were, and from each record what
  -- stands in it.
  induction h with
  | config hn =>
    exact Record.isSome_of_optional (Option.isSome_of_mem hconfig) (Record.node?_of_field hr hn)
  | @entry role name v n hname hv hn =>
    right
    have hnode := Record.node?_of_field hr hv
    cases role with
    | wallet =>
      cases hname
      exact isSome_of_sectionOf hwallets hnode hn
    | contract =>
      cases hname
      exact isSome_of_sectionOf hcontracts hnode hn
    | call =>
      cases hname
      exact isSome_of_sectionOf hcalls hnode hn
    | read =>
      cases hname
      exact isSome_of_sectionOf hreads hnode hn
    | write =>
      cases hname
      exact isSome_of_sectionOf hwrites hnode hn
    | _ => cases hname
  | contractInstance hc hv hn ih =>
    right
    rcases ih with hscalar | haccepts
    . cases hv <;> cases hscalar
    . obtain ⟨c, hc⟩ := Option.isSome_iff_exists.mp haccepts
      obtain ⟨r, hr, hinstances⟩ := ContractDecl.exists_record hc
      have hlist := Record.isSome_of_withDefault (Option.isSome_of_mem hinstances)
        (Record.node?_of_field hr hv)
      exact Yaml.Node.isSome_of_list? hlist hn
  | typedParam hrole hc hv hn ih =>
    right
    rcases ih with hscalar | haccepts
    . cases hv <;> cases hscalar
    . obtain ⟨r, hr, hparams, _⟩ := Role.exists_record_of_isCommand hrole haccepts
      have hlist := Record.isSome_of_withDefault hparams (Record.node?_of_field hr hv)
      exact Yaml.Node.isSome_of_list? hlist hn
  | @inlineInstance role c n hrole hc hn ih =>
    rcases ih with hscalar | haccepts
    . cases hn <;> cases hscalar
    . have hcommand : role.isCommand = true := by
        rcases hrole with rfl | rfl
        . rfl
        . rfl
      obtain ⟨r, hr, _, hinstance⟩ := Role.exists_record_of_isCommand hcommand haccepts
      exact Record.isSome_of_optional (hinstance hrole) (Record.node?_of_field hr hn)
  | step hv hsteps hn =>
    right
    have hlist := isSome_of_sectionOf htargets (Record.node?_of_field hr hv) hsteps
    exact Yaml.Node.isSome_of_list? hlist hn

theorem Holds.declares {pairs : List (Yaml.Node × Yaml.Node)} {tag : Option String}
    (h : Holds root role (.map pairs tag)) (hd : ofNode? root = some d)
    (hclosed : role.schema.closed = true) : ∀ p ∈ pairs, role.schema.Declares role.manner p.1 := by
  rcases h.accepts hd with hscalar | haccepts
  . cases hscalar
  . obtain ⟨nodes, hnodes⟩ :=
      Option.isSome_iff_exists.mp (Role.isSome_ofPairs?_of_accepts haccepts)
    exact Schema.declares_of_ofPairs? hclosed hnodes

end Document

theorem Yaml.Node.pairsPlainData_filter {pairs : List (Yaml.Node × Yaml.Node)}
    (q : Yaml.Node × Yaml.Node → Bool) (h : pairsPlainData pairs = true)
    : pairsPlainData (pairs.filter q) = true := by
  induction pairs with
  | nil => exact h
  | cons p pairs ih =>
    obtain ⟨k, v⟩ := p
    rw [pairsPlainData, Bool.and_eq_true_iff] at h
    rw [List.filter_cons]
    split
    . rw [pairsPlainData, Bool.and_eq_true_iff]
      exact ⟨h.1, ih h.2⟩
    . exact ih h.2

theorem StepDecl.ofNode?_filter {pairs : List (Yaml.Node × Yaml.Node)} {tag : Option String}
    {d : StepDecl} (h : ofNode? (.map pairs tag) = some d)
    : ofNode? (.map (pairs.filter fun p => Role.step.schema.Declares .chosen p.1) tag)
        = some d := by
  unfold ofNode? at h ⊢
  split at h
  . next hplain =>
    obtain ⟨r, hr, hd⟩ := Option.bind_eq_some_iff.mp h
    obtain ⟨nodes, hnodes, rfl⟩ := Option.map_eq_some_iff.mp hr
    rw [if_pos]
    . refine Option.bind_eq_some_iff.mpr ⟨_, Option.map_eq_some_iff.mpr ⟨nodes, ?_, rfl⟩, hd⟩
      exact Schema.ofPairs?_filter hnodes
    . rw [Yaml.Node.isPlainData, Bool.and_eq_true_iff] at hplain ⊢
      exact ⟨hplain.1, Yaml.Node.pairsPlainData_filter _ hplain.2⟩
  . cases h

namespace Document

/--
A key that the record of its place does not declare makes a document unreadable, so that no
misspelled setting is passed over, unless the record is a step of a target. A step is read as if
such keys were not there.
-/
theorem parse_undeclared {text : String} {root : Yaml.Node} {role : Role}
    {pairs : List (Yaml.Node × Yaml.Node)} {tag : Option String}
    (hroot : Yaml.document? text = some (some root))
    (hholds : Holds root role (.map pairs tag))
    : (role ≠ .step → (∃ p ∈ pairs, ¬ role.schema.Declares role.manner p.1) →
        parse text = fail .validation "unable to parse playbook") ∧
      (role = .step → ∀ d, parse text = .ok d →
        ∃ s, StepDecl.ofNode? (.map pairs tag) = some s ∧
          StepDecl.ofNode?
            (.map (pairs.filter fun p => role.schema.Declares role.manner p.1) tag) = some s) := by
  have hparse : parse? text = ofNode? root := by
    unfold parse?
    rw [hroot]
    rfl
  unfold parse
  rw [hparse]
  constructor
  . rintro hstep ⟨p, hp, hundeclared⟩
    have hclosed : role.schema.closed = true := by
      cases role with
      | step => exact absurd rfl hstep
      | _ => rfl
    cases hd : ofNode? root with
    | none => rfl
    | some d => exact absurd (hholds.declares hd hclosed p hp) hundeclared
  . rintro rfl d hd
    cases hread : ofNode? root with
    | none =>
      rw [hread] at hd
      cases hd
    | some d' =>
      rcases hholds.accepts hread with hscalar | haccepts
      . cases hscalar
      . obtain ⟨s, hs⟩ := Option.isSome_iff_exists.mp haccepts
        exact ⟨s, hs, StepDecl.ofNode?_filter hs⟩

section Misspelled

def plainNode (text : String) : Yaml.Node :=
  .scalar text .plain none

def plainToken (text : String) : Yaml.Token :=
  .scalar text .plain

theorem document?_of_tokens? {text : String} {tokens : List Yaml.Token} {n : Option Yaml.Node}
    (htokens : Yaml.tokens? text = some tokens)
    (hn : (Yaml.Build.document.run { tokens }).map Prod.fst = some n)
    : Yaml.document? text = some n := by
  obtain ⟨⟨n', source⟩, hrun, rfl⟩ := Option.map_eq_some_iff.mp hn
  unfold Yaml.document?
  rw [htokens]
  exact Option.bind_eq_some_iff.mpr ⟨tokens, rfl, Option.bind_eq_some_iff.mpr ⟨_, hrun, rfl⟩⟩

def walletText : String :=
  "\x7BWALLETS: \x7Balice: \x7Bpasword: x\x7D\x7D\x7D"

def walletNode : Yaml.Node :=
  .map [(plainNode "WALLETS", .map [(plainNode "alice",
    .map [(plainNode "pasword", plainNode "x")] none)] none)] none

theorem document?_walletText : Yaml.document? walletText = some (some walletNode) := by
  have htokens : Yaml.tokens? walletText
      = some [.openMap, .key, plainToken "WALLETS", .value, .openMap, .key, plainToken "alice",
          .value, .openMap, .key, plainToken "pasword", .value, plainToken "x", .closeMap,
          .closeMap, .closeMap] := by
    decide +kernel
  exact document?_of_tokens? htokens rfl

def stepText : String :=
  "\x7BTARGETS: \x7Bgo: [\x7Bcommand: pay, defered: true\x7D]\x7D\x7D"

def stepNode : Yaml.Node :=
  .map [(plainNode "command", plainNode "pay"), (plainNode "defered", plainNode "true")] none

def goNode : Yaml.Node :=
  .map [(plainNode "TARGETS", .map [(plainNode "go", .seq [stepNode] none)] none)] none

theorem document?_stepText : Yaml.document? stepText = some (some goNode) := by
  have htokens : Yaml.tokens? stepText
      = some [.openMap, .key, plainToken "TARGETS", .value, .openMap, .key, plainToken "go",
          .value, .openSeq, .openMap, .key, plainToken "command", .value, plainToken "pay",
          .comma, .key, plainToken "defered", .value, plainToken "true", .closeMap, .closeSeq,
          .closeMap, .closeMap] := by
    decide +kernel
  exact document?_of_tokens? htokens rfl

theorem parse_misspelled
    : parse walletText = fail .validation "unable to parse playbook" ∧
      parse stepText = .ok { targets := some [("go", [.detailed "pay" [] false])] } ∧
      ∃ s, StepDecl.ofNode? stepNode = some s ∧
        StepDecl.ofNode? (.map [(plainNode "command", plainNode "pay")] none) = some s := by
  have hwallet
      : Holds walletNode .wallet (.map [(plainNode "pasword", plainNode "x")] none) :=
    .entry rfl (.key (List.mem_cons_self ..) (i := 2) rfl rfl) (.mk (List.mem_cons_self ..))
  have hstep : Holds goNode .step stepNode :=
    .step (.key (List.mem_cons_self ..) (i := 4) rfl rfl) (.mk (List.mem_cons_self ..))
      (.mk (List.mem_cons_self ..))
  have hparse : parse stepText = .ok { targets := some [("go", [.detailed "pay" [] false])] } := by
    unfold parse parse?
    rw [document?_stepText]
    rfl
  refine ⟨?_, hparse, ?_⟩
  . apply (parse_undeclared document?_walletText hwallet).1 (by decide)
    exact ⟨_, List.mem_cons_self .., by decide⟩
  . exact (parse_undeclared document?_stepText hstep).2 rfl _ hparse

end Misspelled

end Document

end Runbook
