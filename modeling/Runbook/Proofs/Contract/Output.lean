import Mathlib.Data.List.Induction
import Mathlib.Data.List.Nodup
import Runbook.Contract.Compiler
import Runbook.Proofs.Json.Written

/-!
This module contains what becomes of the contracts in a compiler's output, in whatever order its
entries are visited: of those with one name the last visited stays.
-/

namespace Runbook

namespace Compiler

def entryBuild (e : String × Json × String) : Result Build :=
  build (contractName e.1) e.2.1 e.2.2

def collect (order : Entries (Json × String)) : Result (Entries Build) :=
  order.foldlM (fun built e => do
    return Entries.set built (contractName e.1) (← entryBuild e)) []

def last? (order : Entries (Json × String)) (name : String) : Option Build :=
  (List.find? (fun e => contractName e.1 == name) order.reverse).bind fun e =>
    (entryBuild e).toOption

def Keeps (found : Entries Build) (e : String × Json × String) : Prop :=
  ∃ b, entryBuild e = .ok b ∧ found.find? (contractName e.1) = some b

/--
Whether entries with one name have one contract.
-/
def Consistent (entries : Entries (Json × String)) : Prop :=
  ∀ e ∈ entries, ∀ e' ∈ entries, contractName e.1 = contractName e'.1 → entryBuild e = entryBuild e'

variable {order entries : Entries (Json × String)} {found built : Entries Build}
  {e : String × Json × String} {name : String}

theorem contracts_eq_ok_iff {output : String}
    : contracts output = .ok built ↔
        ∃ entries, entries? output = some entries ∧ collect entries = .ok built := by
  unfold contracts
  cases entries? output with
  | none => simp [fail]
  | some entries =>
    simp only [Option.some.injEq, exists_eq_left']
    rfl

theorem collect_concat (order : Entries (Json × String)) (e : String × Json × String)
    : collect (order ++ [e]) = (do
        let built ← collect order
        return built.set (contractName e.1) (← entryBuild e)) := by
  unfold collect
  rw [List.foldlM_append]
  simp

theorem collect_concat_eq_ok_iff
    : collect (order ++ [e]) = .ok found ↔
        ∃ built b,
          collect order = .ok built ∧
          entryBuild e = .ok b ∧
          found = built.set (contractName e.1) b := by
  rw [collect_concat]
  cases collect order with
  | error r => simp [bind, Except.bind]
  | ok built =>
    cases entryBuild e with
    | error r => simp [bind, Except.bind]
    | ok b => simp [bind, Except.bind, pure, Except.pure, eq_comm]

theorem exists_collect_iff
    : (∃ found, collect order = .ok found) ↔ ∀ e ∈ order, ∃ b, entryBuild e = .ok b := by
  induction order using List.reverseRecOn with
  | nil => exact ⟨fun _ e he => absurd he List.not_mem_nil, fun _ => ⟨[], rfl⟩⟩
  | append_singleton order e ih =>
    simp only [collect_concat_eq_ok_iff, List.mem_append, List.mem_singleton, or_imp, forall_and,
      forall_eq, ← ih]
    constructor
    . rintro ⟨_, built, b, hbuilt, hb, -⟩
      exact ⟨⟨built, hbuilt⟩, b, hb⟩
    . rintro ⟨⟨built, hbuilt⟩, b, hb⟩
      exact ⟨_, built, b, hbuilt, hb, rfl⟩

theorem last?_concat (order : Entries (Json × String)) (e : String × Json × String) (name : String)
    : last? (order ++ [e]) name
        =
      if contractName e.1 = name then (entryBuild e).toOption else last? order name := by
  unfold last?
  rw [List.reverse_append, List.reverse_singleton, List.singleton_append, List.find?_cons]
  split <;> simp_all

theorem find?_collect (h : collect order = .ok found) (name : String)
    : found.find? name = last? order name := by
  induction order using List.reverseRecOn generalizing found with
  | nil =>
    cases h
    rfl
  | append_singleton order e ih =>
    obtain ⟨built, b, hbuilt, hb, rfl⟩ := collect_concat_eq_ok_iff.mp h
    rw [last?_concat]
    split
    . next hname =>
      rw [← hname, Entries.find?_set, hb]
      rfl
    . next hname => rw [Entries.find?_set_of_ne _ _ (Ne.symm hname), ih hbuilt]

theorem last?_cases (order : Entries (Json × String)) (name : String)
    : (last? order name = none ∧ ∀ e ∈ order, contractName e.1 ≠ name) ∨
        ∃ e ∈ order, contractName e.1 = name ∧ last? order name = (entryBuild e).toOption := by
  unfold last?
  cases hfind : List.find? (fun e => contractName e.1 == name) order.reverse with
  | none =>
    left
    refine ⟨rfl, fun e he hname => ?_⟩
    have hmiss := List.find?_eq_none.mp hfind e (List.mem_reverse.mpr he)
    exact hmiss (beq_iff_eq.mpr hname)
  | some e =>
    right
    have hmem := List.mem_reverse.mp (List.mem_of_find?_eq_some hfind)
    have hname := List.find?_some hfind
    exact ⟨e, hmem, beq_iff_eq.mp hname, rfl⟩

theorem exists_order_concat (he : e ∈ entries) : ∃ order, (order ++ [e]).Perm entries := by
  obtain ⟨front, back, rfl⟩ := List.append_of_mem he
  refine ⟨front ++ back, ?_⟩
  rw [List.append_assoc]
  exact List.Perm.append_left front (List.perm_append_singleton e back)

theorem keeps_last (h : collect (order ++ [e]) = .ok found) : Keeps found e := by
  obtain ⟨_, b, _, hb, rfl⟩ := collect_concat_eq_ok_iff.mp h
  exact ⟨b, hb, Entries.find?_set ..⟩

theorem keeps_of_consistent (hconsistent : Consistent entries) (hperm : order.Perm entries)
    (h : collect order = .ok found) (he : e ∈ entries) : Keeps found e := by
  obtain ⟨b, hb⟩ := exists_collect_iff.mp ⟨found, h⟩ e (hperm.mem_iff.mpr he)
  refine ⟨b, hb, ?_⟩
  rw [find?_collect h]
  rcases last?_cases order (contractName e.1) with ⟨-, hnone⟩ | ⟨e', he', hname, hlast⟩
  . exact absurd rfl (hnone e (hperm.mem_iff.mpr he))
  . rw [hlast, hconsistent e' (hperm.mem_iff.mp he') e he hname, hb]
    rfl

theorem Keeps.find?_eq (h : Keeps found e) (h' : Keeps built e)
    : found.find? (contractName e.1) = built.find? (contractName e.1) := by
  obtain ⟨b, hb, hfind⟩ := h
  obtain ⟨b', hb', hfind'⟩ := h'
  cases hb.symm.trans hb'
  rw [hfind, hfind']

theorem Keeps.build_eq {e' : String × Json × String} (h : Keeps found e) (h' : Keeps found e')
    (hname : contractName e.1 = contractName e'.1) : entryBuild e = entryBuild e' := by
  obtain ⟨b, hb, hfind⟩ := h
  obtain ⟨b', hb', hfind'⟩ := h'
  rw [hname, hfind'] at hfind
  cases hfind
  rw [hb, hb']

theorem find?_eq_of_consistent (hconsistent : Consistent entries) (hperm : order.Perm entries)
    (h : collect order = .ok found) (hbuilt : collect entries = .ok built)
    : found.find? name = built.find? name := by
  rcases last?_cases entries name with ⟨hlast, hnone⟩ | ⟨e, he, rfl, -⟩
  . rcases last?_cases order name with ⟨hlast', -⟩ | ⟨e, he, hname, -⟩
    . rw [find?_collect h, find?_collect hbuilt, hlast, hlast']
    . exact absurd hname (hnone e (hperm.mem_iff.mp he))
  . exact (keeps_of_consistent hconsistent hperm h he).find?_eq
      (keeps_of_consistent hconsistent (.refl _) hbuilt he)

/--
In every order in which the entries of an accepted output may be visited, the contract found under a
name is that of the last entry with the name. No entry's contract is lost, in whatever order,
exactly if entries with one name have one contract, and exactly then all orders have one result.
-/
theorem contracts_orders {output : String} (h : contracts output = .ok built)
    : ∃ entries,
        entries? output = some entries ∧
        collect entries = .ok built ∧
        (∀ order, order.Perm entries →
          ∃ found, collect order = .ok found ∧ ∀ name, found.find? name = last? order name) ∧
        ((∀ order found, order.Perm entries → collect order = .ok found →
            ∀ e ∈ entries, Keeps found e) ↔ Consistent entries) ∧
        ((∀ order found, order.Perm entries → collect order = .ok found →
            ∀ name, found.find? name = built.find? name) ↔ Consistent entries) := by
  obtain ⟨entries, hentries, hbuilt⟩ := contracts_eq_ok_iff.mp h
  have hvisit : ∀ order, order.Perm entries → ∃ found, collect order = .ok found :=
    fun order hperm => exists_collect_iff.mpr fun e he =>
      exists_collect_iff.mp ⟨built, hbuilt⟩ e (hperm.mem_iff.mp he)
  have hlast : ∀ e ∈ entries, ∃ order found,
      order.Perm entries ∧ collect order = .ok found ∧ Keeps found e := by
    intro e he
    obtain ⟨order, hperm⟩ := exists_order_concat he
    obtain ⟨found, hfound⟩ := hvisit _ hperm
    exact ⟨_, found, hperm, hfound, keeps_last hfound⟩
  refine ⟨entries, hentries, hbuilt, ?_, ⟨?_, ?_⟩, ?_, ?_⟩
  . intro order hperm
    obtain ⟨found, hfound⟩ := hvisit order hperm
    exact ⟨found, hfound, find?_collect hfound⟩
  . intro hkeeps e he e' he' hname
    obtain ⟨order, found, hperm, hfound, hkept⟩ := hlast e he
    exact hkept.build_eq (hkeeps order found hperm hfound e' he') hname
  . intro hconsistent order found hperm hfound e he
    exact keeps_of_consistent hconsistent hperm hfound he
  . intro hsame
    have hkept : ∀ e ∈ entries, Keeps built e := by
      intro e he
      obtain ⟨order, found, hperm, hfound, b, hb, hfind⟩ := hlast e he
      exact ⟨b, hb, (hsame order found hperm hfound _).symm.trans hfind⟩
    intro e he e' he' hname
    exact (hkept e he).build_eq (hkept e' he') hname
  . intro hconsistent order found hperm hfound name
    exact find?_eq_of_consistent hconsistent hperm hfound hbuilt

def twoSources : Json :=
  .object [("contracts", .object
    [("a.sol:T", .object [("abi", .array []), ("bin", .string "01")]),
      ("b.sol:T", .object [("abi", .array []), ("bin", .string "02")])])]

theorem entries?_twoSources
    : entries? twoSources.write
        =
      some [("a.sol:T", .array [], "01"), ("b.sol:T", .array [], "02")] := by
  have hread : twoSources.isReadable Json.maxDepth = true := by cbv
  unfold entries?
  rw [Json.parse?_write hread]
  rfl

theorem contracts_twoSources
    : ∃ built entries,
        contracts twoSources.write = .ok built ∧
        entries? twoSources.write = some entries ∧
        ¬∀ order found, order.Perm entries → collect order = .ok found →
          ∀ e ∈ entries, Keeps found e := by
  have hdiffer : ¬Consistent [("a.sol:T", .array [], "01"), ("b.sol:T", .array [], "02")] := by
    intro h
    have hbuild := h _ (.head _) _ (.tail _ (.head _)) (by cbv)
    have hcode := congrArg (fun b => b.toOption.map (·.bytecode)) hbuild
    exact absurd hcode (by decide +kernel)
  obtain ⟨built, hbuilt⟩ : ∃ built, contracts twoSources.write = .ok built := by
    unfold contracts
    rw [entries?_twoSources]
    exact ⟨_, rfl⟩
  obtain ⟨entries, hentries, -, -, hkeeps, -⟩ := contracts_orders hbuilt
  cases entries?_twoSources.symm.trans hentries
  exact ⟨built, _, hbuilt, hentries, fun h => hdiffer (hkeeps.mp h)⟩

end Compiler

end Runbook
